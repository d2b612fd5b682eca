import MlkvPlus.Data.Transition
import MlkvPlus.MemDisk.Calls

namespace MlkvPlus.Retention

open Transition

-- Where a call of the tree is, between the calls it makes to RocksDB and to the writer.
inductive Phase where
  | multisetSelected
  | multisetAppended
  | putInserted
  | putSelected
  | acknowledged
  | failed
  deriving DecidableEq, Repr

structure Memtable where
  log : Nat
  batches : List Nat
  deriving DecidableEq, Repr

-- `wals` are the WAL files that have not been deleted, `writer` is the file of the
-- GWAL writer and `records` lists its records, as file and call.
structure State where
  currentWal : Nat
  nextFile : Nat
  walEmpty : Bool
  memtable : Memtable
  immutables : List Memtable
  wals : List Nat
  writer : Nat
  records : List (Nat × Nat)
  calls : Nat → Option Phase

-- A RocksDB write first runs PreprocessWrite: a switch there is a `switchMemtable`
-- right before the `insert` or `putInsert`.
inductive Event where
  | multisetSelect (call : Nat)
  | multisetAppend (call : Nat)
  | multisetInsert (call : Nat)
  | putInsert (call : Nat)
  | putSelect (call : Nat)
  | putAppend (call : Nat)
  | fail (call : Nat)
  | switchMemtable (gap : Nat)
  | flush
  | deleteWal (wal : Nat)
  deriving DecidableEq, Repr

namespace State

def unflushed (s : State) : List Memtable :=
  s.immutables ++ [s.memtable]

def setPhase (s : State) (call : Nat) (phase : Phase) : State :=
  { s with calls := Function.update s.calls call (some phase) }

-- GetCurrentWalFile, with a new writer if the file is another one.
def select (s : State) : State :=
  { s with writer := s.currentWal }

def append (s : State) (call : Nat) : State :=
  { s with records := s.records ++ [(s.writer, call)] }

-- With write_by_gds nothing is written to the WAL, but it counts as not empty.
def insert (config : StorageConfig) (s : State) (call : Nat) : State :=
  { s with
    memtable := { s.memtable with batches := s.memtable.batches ++ [call] }
    walEmpty := if config.disableWAL then s.walEmpty else false }

-- A new WAL is created only if the current one is not empty.
def switchMemtable (s : State) (gap : Nat) : State :=
  let newLogNumber := if s.walEmpty then s.currentWal else s.nextFile + gap
  { s with
    currentWal := newLogNumber
    nextFile := if s.walEmpty then s.nextFile else newLogNumber + 1
    walEmpty := true
    memtable := ⟨newLogNumber, []⟩
    immutables := s.immutables ++ [s.memtable]
    wals := if s.walEmpty then s.wals else s.wals ++ [newLogNumber] }

end State

def step (config : StorageConfig) (s : State) : Event → Option State
  | .multisetSelect call =>
    if s.calls call = none then some (s.select.setPhase call .multisetSelected) else none
  | .multisetAppend call =>
    if s.calls call = some .multisetSelected then
      some ((s.append call).setPhase call .multisetAppended)
    else none
  | .multisetInsert call =>
    if s.calls call = some .multisetAppended then
      some ((s.insert config call).setPhase call .acknowledged)
    else none
  | .putInsert call =>
    if s.calls call = none then some ((s.insert config call).setPhase call .putInserted)
    else none
  | .putSelect call =>
    if s.calls call = some .putInserted then some (s.select.setPhase call .putSelected)
    else none
  | .putAppend call =>
    if s.calls call = some .putSelected then
      some ((s.append call).setPhase call .acknowledged)
    else none
  | .fail call =>
    if s.calls call ≠ some .acknowledged then some (s.setPhase call .failed) else none
  | .switchMemtable gap => some (s.switchMemtable gap)
  | .flush =>
    match s.immutables with
    | [] => none
    | _ :: rest => some { s with immutables := rest }
  -- only files older than every unflushed memtable's WAL may go
  | .deleteWal wal =>
    if ∀ memtable ∈ s.unflushed, wal < memtable.log then
      some { s with wals := s.wals.filter (· ≠ wal) }
    else none

def opened (wal : Nat) : State where
  currentWal := wal
  nextFile := wal + 1
  walEmpty := true
  memtable := ⟨wal, []⟩
  immutables := []
  wals := [wal]
  writer := wal
  records := []
  calls _ := none

def machine (config : StorageConfig) : Machine State Event where
  initial s := ∃ wal, s = opened wal
  step := step config

-- Every acknowledged batch in an unflushed memtable has its record in a kept file.
def Retained (s : State) : Prop :=
  ∀ memtable ∈ s.unflushed, ∀ call ∈ memtable.batches, s.calls call = some .acknowledged →
    ∃ wal, (wal, call) ∈ s.records ∧ wal ∈ s.wals

-- No new WAL is created while a multiset is between GetCurrentWalFile and its insert.
def Calm (s : State) : Event → Prop
  | .switchMemtable _ => s.walEmpty = true ∨
      ∀ call, s.calls call ≠ some .multisetSelected ∧ s.calls call ≠ some .multisetAppended
  | _ => True

-- The calls of the tree, in the order in which it makes its own calls.
def callEvents (call : Nat) : Call K V dim → List Event
  | .put _ _ => [.putInsert call, .putSelect call, .putAppend call]
  | .multiset _ => [.multisetSelect call, .multisetAppend call, .multisetInsert call]

structure Matches (tree : MemDisk) (s : State) : Prop where
  current : s.currentWal = tree.currentWal
  writer : s.writer = tree.walFile
  records : s.records.map Prod.fst = tree.appended.map Prod.fst

-- A call of the tree that nothing interrupts is a run of its events.
theorem exec_callEvents [Scalar K] [Scalar V] {config : StorageConfig} {env : CallEnv K}
    {operation : Call K V dim} (hlog : config.enableGdsLog = true)
    (hcall : MemDisk.call config env tree operation = (.returned .SUCCESS, tree'))
    (hmatches : Matches tree s) (hfree : s.calls call = none) :
    ∃ s', (machine config).exec s (callEvents call operation) = some s' ∧ Matches tree' s' ∧
      s'.calls call = some .acknowledged := by
  obtain ⟨payload, happends, _⟩ := MemDisk.call_success hlog hcall
  have hwriter : s.currentWal = tree'.walFile := hmatches.current.trans happends.file.symm
  have hcurrent : s.currentWal = tree'.currentWal :=
    hmatches.current.trans happends.current.symm
  have hrecords : (s.records ++ [(s.currentWal, call)]).map Prod.fst =
      tree'.appended.map Prod.fst := by
    rw [happends.appended, List.map_append, List.map_append, hmatches.records, hmatches.current]
    rfl
  cases operation with
  | put key values =>
    refine ⟨(((((s.insert config call).setPhase call .putInserted).select.setPhase call
      .putSelected).append call).setPhase call .acknowledged), ?_, ⟨hcurrent, hwriter, hrecords⟩,
      by simp [State.setPhase]⟩
    simp [callEvents, Machine.exec, machine, step, hfree, State.setPhase, State.select,
      State.insert]
  | multiset pairs =>
    refine ⟨(((((s.select.setPhase call .multisetSelected).append call).setPhase call
      .multisetAppended).insert config call).setPhase call .acknowledged), ?_,
      ⟨hcurrent, hwriter, hrecords⟩, by simp [State.setPhase]⟩
    simp [callEvents, Machine.exec, machine, step, hfree, State.setPhase, State.select,
      State.append]

-- What the calls in progress rely on. A record that is older than the memtable of its
-- batch would be lost with its file, so every file is compared with the memtable's log.
structure Inv (s : State) : Prop where
  log_le : ∀ memtable ∈ s.unflushed, memtable.log ≤ s.currentWal
  current_lt : s.currentWal < s.nextFile
  current_mem : s.currentWal ∈ s.wals
  kept : ∀ memtable ∈ s.unflushed, ∀ call ∈ memtable.batches,
    s.calls call = some .acknowledged →
      ∃ wal, (wal, call) ∈ s.records ∧ memtable.log ≤ wal ∧ wal ∈ s.wals
  putSelected : ∀ memtable ∈ s.unflushed, ∀ call ∈ memtable.batches,
    s.calls call = some .putSelected → memtable.log ≤ s.writer ∧ s.writer ∈ s.wals
  selected : ∀ call, s.calls call = some .multisetSelected → s.writer = s.currentWal
  appended : ∀ call, s.calls call = some .multisetAppended → (s.currentWal, call) ∈ s.records

theorem setPhase_calls (s : State) (call other : Nat) (phase : Phase) :
    (s.setPhase call phase).calls other = if other = call then some phase else s.calls other := by
  simp [State.setPhase, Function.update_apply]

theorem inv_opened (wal : Nat) : Inv (opened wal) where
  log_le memtable hmem := by
    simp only [State.unflushed, opened, List.nil_append, List.mem_singleton] at hmem
    simp [hmem, opened]
  current_lt := Nat.lt_succ_self wal
  current_mem := List.mem_singleton.mpr rfl
  kept _ _ _ _ hphase := nomatch hphase
  putSelected _ _ _ _ hphase := nomatch hphase
  selected _ hphase := nomatch hphase
  appended _ hphase := nomatch hphase

theorem Inv.setPhase (h : Inv s) (call : Nat) (phase : Phase)
    (hack : phase = .acknowledged → ∀ memtable ∈ s.unflushed, call ∈ memtable.batches →
      ∃ wal, (wal, call) ∈ s.records ∧ memtable.log ≤ wal ∧ wal ∈ s.wals)
    (hput : phase = .putSelected → ∀ memtable ∈ s.unflushed, call ∈ memtable.batches →
      memtable.log ≤ s.writer ∧ s.writer ∈ s.wals)
    (hselected : phase = .multisetSelected → s.writer = s.currentWal)
    (happended : phase = .multisetAppended → (s.currentWal, call) ∈ s.records) :
    Inv (s.setPhase call phase) where
  log_le := h.log_le
  current_lt := h.current_lt
  current_mem := h.current_mem
  kept memtable hmem other hbatch hphase := by
    rw [setPhase_calls] at hphase
    split at hphase
    · rename_i heq
      subst heq
      exact hack (Option.some.inj hphase) memtable hmem hbatch
    · exact h.kept memtable hmem other hbatch hphase
  putSelected memtable hmem other hbatch hphase := by
    rw [setPhase_calls] at hphase
    split at hphase
    · rename_i heq
      subst heq
      exact hput (Option.some.inj hphase) memtable hmem hbatch
    · exact h.putSelected memtable hmem other hbatch hphase
  selected other hphase := by
    rw [setPhase_calls] at hphase
    split at hphase
    · exact hselected (Option.some.inj hphase)
    · exact h.selected other hphase
  appended other hphase := by
    rw [setPhase_calls] at hphase
    split at hphase
    · rename_i heq
      subst heq
      exact happended (Option.some.inj hphase)
    · exact h.appended other hphase

theorem Inv.select (h : Inv s) : Inv s.select where
  log_le := h.log_le
  current_lt := h.current_lt
  current_mem := h.current_mem
  kept := h.kept
  putSelected memtable hmem _ _ _ := ⟨h.log_le memtable hmem, h.current_mem⟩
  selected _ _ := rfl
  appended := h.appended

theorem Inv.append (h : Inv s) (call : Nat) : Inv (s.append call) where
  log_le := h.log_le
  current_lt := h.current_lt
  current_mem := h.current_mem
  kept memtable hmem other hbatch hphase := by
    obtain ⟨wal, hrecord, hle, hkept⟩ := h.kept memtable hmem other hbatch hphase
    exact ⟨wal, List.mem_append_left _ hrecord, hle, hkept⟩
  putSelected := h.putSelected
  selected := h.selected
  appended other hphase := List.mem_append_left _ (h.appended other hphase)

theorem mem_unflushed_insert (hmem : memtable ∈ (State.insert config s call).unflushed) :
    ∃ before ∈ s.unflushed, memtable.log = before.log ∧
      ∀ other ∈ memtable.batches, other ∈ before.batches ∨ other = call := by
  simp only [State.unflushed, State.insert, List.mem_append, List.mem_singleton] at hmem
  obtain hold | rfl := hmem
  · exact ⟨memtable, List.mem_append_left _ hold, rfl, fun _ hbatch => .inl hbatch⟩
  · refine ⟨s.memtable, List.mem_append_right _ (List.mem_singleton.mpr rfl), rfl, ?_⟩
    intro other hbatch
    exact (List.mem_append.mp hbatch).imp id List.mem_singleton.mp

theorem Inv.insert (config : StorageConfig) (h : Inv s) (call : Nat)
    (hack : s.calls call ≠ some .acknowledged) (hput : s.calls call ≠ some .putSelected) :
    Inv (s.insert config call) where
  log_le memtable hmem := by
    obtain ⟨before, hbefore, hlog, _⟩ := mem_unflushed_insert hmem
    rw [hlog]
    exact h.log_le before hbefore
  current_lt := h.current_lt
  current_mem := h.current_mem
  kept memtable hmem other hbatch hphase := by
    obtain ⟨before, hbefore, hlog, hbatches⟩ := mem_unflushed_insert hmem
    obtain hold | rfl := hbatches other hbatch
    · rw [hlog]
      exact h.kept before hbefore other hold hphase
    · exact absurd hphase hack
  putSelected memtable hmem other hbatch hphase := by
    obtain ⟨before, hbefore, hlog, hbatches⟩ := mem_unflushed_insert hmem
    obtain hold | rfl := hbatches other hbatch
    · rw [hlog]
      exact h.putSelected before hbefore other hold hphase
    · exact absurd hphase hput
  selected := h.selected
  appended := h.appended

theorem mem_unflushed_switch (hmem : memtable ∈ (State.switchMemtable s gap).unflushed) :
    memtable ∈ s.unflushed ∨
      memtable.batches = [] ∧ memtable.log = (s.switchMemtable gap).currentWal := by
  rw [State.unflushed, List.mem_append, List.mem_singleton] at hmem
  obtain hold | rfl := hmem
  · exact .inl hold
  · exact .inr ⟨rfl, rfl⟩

-- The new memtable is empty, so that a memtable with a batch is an old one.
theorem unflushed_of_mem_switch (hmem : memtable ∈ (State.switchMemtable s gap).unflushed)
    (hbatch : call ∈ memtable.batches) : memtable ∈ s.unflushed := by
  obtain hold | ⟨hempty, _⟩ := mem_unflushed_switch hmem
  · exact hold
  · rw [hempty] at hbatch
    exact absurd hbatch List.not_mem_nil

theorem current_switch_of_empty (hempty : s.walEmpty = true) (gap : Nat) :
    (State.switchMemtable s gap).currentWal = s.currentWal := by
  simp [State.switchMemtable, hempty]

theorem current_le_switch (h : Inv s) (gap : Nat) :
    s.currentWal ≤ (s.switchMemtable gap).currentWal := by
  have hlt := h.current_lt
  simp only [State.switchMemtable]
  split <;> omega

theorem mem_wals_switch (gap : Nat) (hmem : wal ∈ s.wals) :
    wal ∈ (State.switchMemtable s gap).wals := by
  simp only [State.switchMemtable]
  split
  · exact hmem
  · exact List.mem_append_left _ hmem

theorem Inv.switchMemtable (h : Inv s) (gap : Nat) (hcalm : Calm s (.switchMemtable gap)) :
    Inv (s.switchMemtable gap) where
  log_le memtable hmem := by
    obtain hold | ⟨_, hlog⟩ := mem_unflushed_switch hmem
    · exact Nat.le_trans (h.log_le memtable hold) (current_le_switch h gap)
    · exact Nat.le_of_eq hlog
  current_lt := by
    have hlt := h.current_lt
    simp only [State.switchMemtable]
    split <;> omega
  current_mem := by
    have hmem := h.current_mem
    simp only [State.switchMemtable]
    split
    · exact hmem
    · exact List.mem_append_right _ (List.mem_singleton.mpr rfl)
  kept memtable hmem call hbatch hphase := by
    have hold := unflushed_of_mem_switch hmem hbatch
    obtain ⟨wal, hrecord, hle, hkept⟩ := h.kept memtable hold call hbatch hphase
    exact ⟨wal, hrecord, hle, mem_wals_switch gap hkept⟩
  putSelected memtable hmem call hbatch hphase := by
    have hold := unflushed_of_mem_switch hmem hbatch
    obtain ⟨hle, hkept⟩ := h.putSelected memtable hold call hbatch hphase
    exact ⟨hle, mem_wals_switch gap hkept⟩
  selected call hphase := by
    obtain hempty | hnone := hcalm
    · rw [current_switch_of_empty hempty]
      exact h.selected call hphase
    · exact absurd hphase (hnone call).1
  appended call hphase := by
    obtain hempty | hnone := hcalm
    · rw [current_switch_of_empty hempty]
      exact h.appended call hphase
    · exact absurd hphase (hnone call).2

theorem Inv.flush (h : Inv s) (hcons : s.immutables = first :: rest) :
    Inv { s with immutables := rest } := by
  have hsub (memtable : Memtable)
      (hmem : memtable ∈ State.unflushed { s with immutables := rest }) :
      memtable ∈ s.unflushed := by
    rw [State.unflushed, hcons, List.cons_append]
    exact List.mem_cons_of_mem _ hmem
  exact {
    log_le := fun memtable hmem => h.log_le memtable (hsub memtable hmem)
    current_lt := h.current_lt
    current_mem := h.current_mem
    kept := fun memtable hmem => h.kept memtable (hsub memtable hmem)
    putSelected := fun memtable hmem => h.putSelected memtable (hsub memtable hmem)
    selected := h.selected
    appended := h.appended }

theorem Inv.deleteWal (h : Inv s) (hold : ∀ memtable ∈ s.unflushed, wal < memtable.log) :
    Inv { s with wals := s.wals.filter (· ≠ wal) } := by
  -- a file that some unflushed memtable is not newer than stays
  have hstays (memtable : Memtable) (hmem : memtable ∈ s.unflushed) (other : Nat)
      (hle : memtable.log ≤ other) (hkept : other ∈ s.wals) :
      other ∈ s.wals.filter (· ≠ wal) := by
    have hlt := hold memtable hmem
    exact List.mem_filter.mpr ⟨hkept, decide_eq_true (by omega)⟩
  have hactive : s.memtable ∈ s.unflushed :=
    List.mem_append_right _ (List.mem_singleton.mpr rfl)
  exact {
    log_le := h.log_le
    current_lt := h.current_lt
    current_mem := hstays _ hactive _ (h.log_le _ hactive) h.current_mem
    kept := fun memtable hmem call hbatch hphase => by
      obtain ⟨other, hrecord, hle, hkept⟩ := h.kept memtable hmem call hbatch hphase
      exact ⟨other, hrecord, hle, hstays memtable hmem other hle hkept⟩
    putSelected := fun memtable hmem call hbatch hphase => by
      obtain ⟨hle, hkept⟩ := h.putSelected memtable hmem call hbatch hphase
      exact ⟨hle, hstays memtable hmem s.writer hle hkept⟩
    selected := h.selected
    appended := h.appended }

theorem inv_step (config : StorageConfig) (s : State) (event : Event) (s' : State) (h : Inv s)
    (hcalm : Calm s event) (hstep : step config s event = some s') : Inv s' := by
  cases event with
  | multisetSelect call =>
    simp only [step, Option.ite_none_right_eq_some, Option.some.injEq] at hstep
    obtain ⟨_, rfl⟩ := hstep
    exact h.select.setPhase call .multisetSelected (by simp) (by simp) (fun _ => rfl) (by simp)
  | multisetAppend call =>
    simp only [step, Option.ite_none_right_eq_some, Option.some.injEq] at hstep
    obtain ⟨hphase, rfl⟩ := hstep
    refine (h.append call).setPhase call .multisetAppended (by simp) (by simp) (by simp) ?_
    intro _
    rw [State.append, h.selected call hphase]
    exact List.mem_append_right _ (List.mem_singleton.mpr rfl)
  | multisetInsert call =>
    simp only [step, Option.ite_none_right_eq_some, Option.some.injEq] at hstep
    obtain ⟨hphase, rfl⟩ := hstep
    have hinsert := h.insert config call (by simp [hphase]) (by simp [hphase])
    refine hinsert.setPhase call .acknowledged ?_ (by simp) (by simp) (by simp)
    intro _ memtable hmem _
    exact ⟨s.currentWal, h.appended call hphase, hinsert.log_le memtable hmem, h.current_mem⟩
  | putInsert call =>
    simp only [step, Option.ite_none_right_eq_some, Option.some.injEq] at hstep
    obtain ⟨hphase, rfl⟩ := hstep
    exact (h.insert config call (by simp [hphase]) (by simp [hphase])).setPhase call
      .putInserted (by simp) (by simp) (by simp) (by simp)
  | putSelect call =>
    simp only [step, Option.ite_none_right_eq_some, Option.some.injEq] at hstep
    obtain ⟨_, rfl⟩ := hstep
    exact h.select.setPhase call .putSelected (by simp)
      (fun _ memtable hmem _ => ⟨h.log_le memtable hmem, h.current_mem⟩) (by simp) (by simp)
  | putAppend call =>
    simp only [step, Option.ite_none_right_eq_some, Option.some.injEq] at hstep
    obtain ⟨hphase, rfl⟩ := hstep
    refine (h.append call).setPhase call .acknowledged ?_ (by simp) (by simp) (by simp)
    intro _ memtable hmem hbatch
    obtain ⟨hle, hkept⟩ := h.putSelected memtable hmem call hbatch hphase
    exact ⟨s.writer, List.mem_append_right _ (List.mem_singleton.mpr rfl), hle, hkept⟩
  | fail call =>
    simp only [step, Option.ite_none_right_eq_some, Option.some.injEq] at hstep
    obtain ⟨_, rfl⟩ := hstep
    exact h.setPhase call .failed (by simp) (by simp) (by simp) (by simp)
  | switchMemtable gap =>
    cases hstep
    exact h.switchMemtable gap hcalm
  | flush =>
    simp only [step] at hstep
    split at hstep
    · cases hstep
    · rename_i hcons
      cases hstep
      exact h.flush hcons
  | deleteWal wal =>
    simp only [step, Option.ite_none_right_eq_some, Option.some.injEq] at hstep
    obtain ⟨hold, rfl⟩ := hstep
    exact h.deleteWal hold

-- In every run that creates no WAL under a multiset, what is acknowledged and not
-- flushed can be read from a WAL that is still there.
theorem retained_of_calm (config : StorageConfig) (s : State)
    (h : (machine config).Reachable Calm s) : Retained s := by
  have hinv : Inv s := by
    refine h.invariant ?_ (inv_step config)
    rintro _ ⟨wal, rfl⟩
    exact inv_opened wal
  intro memtable hmem call hbatch hphase
  obtain ⟨wal, hrecord, _, hkept⟩ := hinv.kept memtable hmem call hbatch hphase
  exact ⟨wal, hrecord, hkept⟩

-- A multiset, then a switch, and a put into the new memtable: one batch in each.
def switchBetween : List Event :=
  [.multisetSelect 1, .multisetAppend 1, .multisetInsert 1, .switchMemtable 0, .putInsert 2,
    .putSelect 2, .putAppend 2]

theorem retained_of_switch_between :
    ∃ s, (machine {}).exec (opened 1) switchBetween = some s ∧
      s.unflushed = [⟨1, [1]⟩, ⟨2, [2]⟩] ∧ Retained s := by
  have hcalm : (machine {}).Allows Calm (opened 1) switchBetween := by
    refine .cons trivial rfl <| .cons trivial rfl <| .cons trivial rfl <|
      .cons (.inr fun call => ?_) rfl <| .cons trivial rfl <| .cons trivial rfl <|
      .cons trivial rfl trivial
    by_cases hcall : call = 1
    · subst hcall
      decide
    · simp [setPhase_calls, hcall, State.insert, State.append, State.select, opened]
  exact ⟨_, rfl, rfl, retained_of_calm {} _ (.exec switchBetween (.start ⟨1, rfl⟩) hcalm rfl)⟩

-- The second multiset has chosen WAL 1 when the switch creates WAL 2. Its batch goes into
-- the memtable of WAL 2, and WAL 1 is deleted once the first memtable is flushed.
def switchInside : List Event :=
  [.multisetSelect 1, .multisetAppend 1, .multisetInsert 1, .multisetSelect 2,
    .multisetAppend 2, .switchMemtable 0, .multisetInsert 2, .flush, .deleteWal 1]

theorem not_retained_of_switch_inside :
    ∃ s, (machine {}).exec (opened 1) switchInside = some s ∧
      (machine {}).Reachable (fun _ _ => True) s ∧ s.unflushed = [⟨2, [2]⟩] ∧ s.calls 2 = some .acknowledged ∧
      s.records = [(1, 1), (1, 2)] ∧ s.wals = [2] ∧ ¬Retained s := by
  refine ⟨_, rfl, .exec switchInside (.start ⟨1, rfl⟩) ((machine {}).allows_true _ _) rfl, rfl, rfl, rfl,
    rfl, ?_⟩
  intro hretained
  obtain ⟨wal, hrecord, hkept⟩ :=
    hretained ⟨2, [2]⟩ (List.mem_singleton.mpr rfl) 2 (List.mem_singleton.mpr rfl) rfl
  have hwal : wal = 2 := List.mem_singleton.mp hkept
  subst hwal
  exact absurd hrecord (by decide)

end MlkvPlus.Retention
