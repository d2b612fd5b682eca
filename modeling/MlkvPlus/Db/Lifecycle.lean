import MlkvPlus.Data.Ownership
import MlkvPlus.Db

namespace MlkvPlus.Lifecycle

open Ownership

-- The members of a DB that its initialization sets.
structure Handle where
  gpuTree : Bool := false
  memdiskTree : Bool := false
  cudaStream : Option Nat := none
  ownsCudaStream : Bool := false
  initialized : Bool := false

inductive Outcome where
  | returned (result : OperationResult)
  | thrown
  deriving DecidableEq

-- How the steps of an initialization end.
structure InitEnv where
  deviceFails : Bool := false
  streamFails : Bool := false
  memdiskTree : Outcome := .returned .SUCCESS
  synchronizeFails : Bool := false
  lastError : Bool := false
  gpuTree : Outcome := .returned .SUCCESS
  synchronizeAgainFails : Bool := false
  lastErrorAgain : Bool := false

-- The part of DB::initialize after the stream is set. A failure leaves the members as they are.
def openTrees (env : InitEnv) (db : Handle) : Handle × Outcome :=
  let db := { db with memdiskTree := true }
  if env.memdiskTree ≠ .returned .SUCCESS then (db, env.memdiskTree)
  else if env.synchronizeFails = true then (db, .thrown)
  else if env.lastError = true then (db, .returned .CUDA_ERROR)
  else
    let db := { db with gpuTree := true }
    if env.gpuTree ≠ .returned .SUCCESS then (db, env.gpuTree)
    else if env.synchronizeAgainFails = true then (db, .thrown)
    else if env.lastErrorAgain = true then (db, .returned .CUDA_ERROR)
    else ({ db with initialized := true }, .returned .SUCCESS)

def initializeDB (env : InitEnv) (stream : Option Nat) (db : Handle) :
    Program (Handle × Outcome) :=
  if db.initialized = true then pure (db, .returned .SUCCESS)
  else if env.deviceFails = true then pure (db, .thrown)
  else match stream with
    | some external =>
      pure (openTrees env { db with cudaStream := some external, ownsCudaStream := false })
    | none =>
      if env.streamFails = true then pure (db, .returned .CUDA_ERROR)
      else do
        let created ← allocate
        pure (openTrees env { db with cudaStream := some created, ownsCudaStream := true })

def destroyStream (fails : Bool) (stream : Nat) : Program Unit :=
  if fails = true then pure ()
  else do
    let _ ← release stream

-- The failure of cudaStreamDestroy is printed, and the stream is forgotten all the same.
def cleanup (destroyFails : Bool) (db : Handle) : Program Handle :=
  if db.initialized = false then pure db
  else
    let db := { db with gpuTree := false, memdiskTree := false }
    match db.cudaStream, db.ownsCudaStream with
    | some stream, true => do
        destroyStream destroyFails stream
        pure { db with cudaStream := none, ownsCudaStream := false, initialized := false }
    | _, _ => pure { db with initialized := false }

inductive Event where
  | initializeDB (env : InitEnv) (stream : Option Nat)
  | cleanup (destroyFails : Bool)

def step (db : Handle) : Event → Program Handle
  | .initializeDB env stream => do
      let (db, _) ← initializeDB env stream db
      pure db
  | .cleanup destroyFails => cleanup destroyFails db

def run (db : Handle) : List Event → Program Handle
  | [] => pure db
  | event :: events => do
      let db ← step db event
      run db events

-- The destructor cleans up.
def lifetime (events : List Event) (destroyFails : Bool) : Program Unit := do
  let db ← run {} events
  let _ ← cleanup destroyFails db

-- An initialization that gets to the trees, and makes a stream if it is given none.
def InitEnv.reaches (env : InitEnv) (stream : Option Nat) : Bool :=
  !env.deviceFails && (stream.isSome || !env.streamFails)

def InitEnv.opens (env : InitEnv) : Bool :=
  env.memdiskTree = .returned .SUCCESS && !env.synchronizeFails && !env.lastError &&
    env.gpuTree = .returned .SUCCESS && !env.synchronizeAgainFails && !env.lastErrorAgain

-- A DB as its client sees it: closed, or open with a stream that it was given or made itself.
inductive Use where
  | closed
  | given
  | own (stream : Nat)
  deriving DecidableEq

-- The streams it makes are numbered, and `next` is the number of the next one.
structure Life where
  use : Use
  next : Nat

def Life.initializeDB (life : Life) (env : InitEnv) : Option Nat → Life
  | some _ => ⟨if env.opens = true then .given else .closed, life.next⟩
  | none => ⟨if env.opens = true then .own life.next else .closed, life.next + 1⟩

def Life.after (life : Life) : Event → Life
  | .initializeDB env stream =>
    if life.use = .closed ∧ env.reaches stream = true then life.initializeDB env stream else life
  | .cleanup _ => ⟨.closed, life.next⟩

-- The stream that is lost with an event: that of an initialization which makes one and fails
-- then, and that of a clean-up which cannot destroy it.
def Life.loses (life : Life) : Event → List Nat
  | .initializeDB env stream =>
    if life.use = .closed ∧ env.reaches stream = true ∧ stream = none ∧ env.opens = false
      then [life.next] else []
  | .cleanup destroyFails =>
    match life.use with
    | .own stream => if destroyFails = true then [stream] else []
    | _ => []

def lostStreams : Life → List Event → List Nat
  | _, [] => []
  | life, event :: events => life.loses event ++ lostStreams (life.after event) events

section Steps

def Use.streams : Use → Multiset Nat
  | .own stream => {stream}
  | _ => 0

def Represents (db : Handle) : Use → Prop
  | .closed => db.initialized = false
  | .given => db.initialized = true ∧ db.ownsCudaStream = false
  | .own stream =>
    db.initialized = true ∧ db.ownsCudaStream = true ∧ db.cudaStream = some stream

variable {db : Handle} {life : Life} {heap : Heap} {frame : Multiset Nat}

theorem openTrees_spec (env : InitEnv) (hdb : db.initialized = false) :
    (openTrees env db).1.initialized = env.opens ∧
      (openTrees env db).1.cudaStream = db.cudaStream ∧
      (openTrees env db).1.ownsCudaStream = db.ownsCudaStream := by
  simp only [InitEnv.opens, openTrees]
  split_ifs <;> simp_all

-- The state of the runtime beside a DB that holds the streams of `life`.
structure Beside (db : Handle) (life : Life) (frame : Multiset Nat) (heap : Heap) : Prop where
  represents : Represents db life.use
  next : heap.next = life.next
  live : heap.live = frame + life.use.streams

-- What an event does: it makes no mistake, and what it loses stays.
def Steps (program : Program Handle) (life : Life) (lost : List Nat) (frame : Multiset Nat)
    (heap : Heap) : Prop :=
  ∃ db after, program heap = .ok db after ∧ after.mistakes = heap.mistakes ∧
    Beside db life (frame + (lost : Multiset Nat)) after

theorem Steps.of_run (hrun : program heap = .ok db after)
    (hmistakes : after.mistakes = heap.mistakes) (h : Beside db life frame after) :
    Steps program life [] frame heap := by
  refine ⟨db, after, hrun, hmistakes, ?_⟩
  rwa [Multiset.coe_nil, add_zero]

theorem initializeDB_initialized (env : InitEnv) (stream : Option Nat)
    (hdb : db.initialized = true) :
    (initializeDB env stream db : Program _) = pure (db, .returned .SUCCESS) := by
  simp only [initializeDB, hdb, if_true]

-- One that fails before it sets the stream changes nothing.
theorem initializeDB_not_reaches (hdb : db.initialized = false)
    (hreaches : ¬env.reaches stream = true) :
    ∃ outcome, (initializeDB env stream db : Program _) = pure (db, outcome) := by
  simp only [initializeDB, hdb, Bool.false_eq_true, if_false]
  cases hdevice : env.deviceFails with
  | true => exact ⟨.thrown, if_pos rfl⟩
  | false =>
    cases stream with
    | some external => exact absurd (by simp [InitEnv.reaches, hdevice]) hreaches
    | none =>
      have hstream : env.streamFails = true := by simpa [InitEnv.reaches, hdevice] using hreaches
      exact ⟨.returned .CUDA_ERROR, if_pos hstream⟩

theorem initializeDB_given (hdb : db.initialized = false)
    (hreaches : env.reaches (some external) = true) :
    (initializeDB env (some external) db : Program _) =
      pure (openTrees env { db with cudaStream := some external, ownsCudaStream := false }) := by
  have hdevice : env.deviceFails = false := by simpa [InitEnv.reaches] using hreaches
  simp only [initializeDB, hdb, hdevice, Bool.false_eq_true, if_false]

theorem initializeDB_made (hdb : db.initialized = false) (hreaches : env.reaches none = true)
    (heap : Heap) :
    initializeDB env none db heap = .ok
      (openTrees env { db with cudaStream := some heap.next, ownsCudaStream := true })
      { heap with next := heap.next + 1, live := heap.next ::ₘ heap.live } := by
  obtain ⟨hdevice, hstream⟩ : env.deviceFails = false ∧ env.streamFails = false := by
    simpa [InitEnv.reaches] using hreaches
  unfold initializeDB
  rw [hdb, hdevice, hstream]
  rfl

-- A DB that was closed has the stream it is given or made, and keeps it if its trees open.
theorem openTrees_represents (env : InitEnv) (hdb : db.initialized = false)
    (hopen : Represents { db with initialized := true } use) :
    Represents (openTrees env db).1 (if env.opens = true then use else .closed) := by
  obtain ⟨hinitialized, hstream, howns⟩ := openTrees_spec env hdb
  split
  case isTrue hopens =>
      cases use with
      | closed => cases hopen
      | given => exact ⟨hinitialized.trans hopens, howns.trans hopen.2⟩
      | own stream =>
        exact ⟨hinitialized.trans hopens, howns.trans hopen.2.1, hstream.trans hopen.2.2⟩
  case isFalse hopens => exact hinitialized.trans (Bool.not_eq_true _ ▸ hopens)

theorem initializeDB_reaches (hdb : db.initialized = false) (hreaches : env.reaches stream = true)
    (hnext : heap.next = life.next) (hlive : heap.live = frame) :
    Steps (step db (.initializeDB env stream)) (life.initializeDB env stream)
      (if stream = none ∧ env.opens = false then [life.next] else []) frame heap := by
  cases stream with
  | some external =>
    have hgiven : Represents
        { db with cudaStream := some external, ownsCudaStream := false, initialized := true }
        .given := ⟨rfl, rfl⟩
    rw [if_neg (fun hnone => nomatch hnone.1)]
    refine .of_run (bind_ok (congrFun (initializeDB_given hdb hreaches) heap)) rfl
      ⟨openTrees_represents env hdb hgiven, hnext, ?_⟩
    rw [hlive, Life.initializeDB]
    cases env.opens <;> exact (add_zero frame).symm
  | none =>
    have hown : Represents
        { db with cudaStream := some heap.next, ownsCudaStream := true, initialized := true }
        (.own life.next) := ⟨rfl, rfl, congrArg some hnext⟩
    refine ⟨_, _, bind_ok (initializeDB_made hdb hreaches heap), rfl,
      openTrees_represents env hdb hown, congrArg (· + 1) hnext, ?_⟩
    change heap.next ::ₘ heap.live = _
    rw [Life.initializeDB, hlive, hnext, ← Multiset.singleton_add, add_comm {_}]
    cases env.opens with
    | true => exact congrArg (· + {life.next}) (add_zero frame).symm
    | false => exact (add_zero (frame + {life.next})).symm

theorem initializeDB_steps (env : InitEnv) (stream : Option Nat) (h : Beside db life frame heap) :
    Steps (step db (.initializeDB env stream)) (life.after (.initializeDB env stream))
      (life.loses (.initializeDB env stream)) frame heap := by
  have hrepresents := h.represents
  have hlive := h.live
  rw [Life.after, Life.loses]
  by_cases hcloses : life.use = .closed ∧ env.reaches stream = true
  · obtain ⟨huse, hreaches⟩ := hcloses
    rw [huse] at hrepresents hlive
    simp only [huse, hreaches, true_and, and_self, if_true]
    exact initializeDB_reaches hrepresents hreaches h.next (hlive.trans (add_zero frame))
  · rw [if_neg hcloses, if_neg fun hloses => hcloses ⟨hloses.1, hloses.2.1⟩]
    obtain ⟨outcome, hrun⟩ : ∃ outcome,
        (initializeDB env stream db : Program _) = pure (db, outcome) := by
      cases huse : life.use with
      | closed =>
        rw [huse] at hrepresents
        exact initializeDB_not_reaches hrepresents fun hreaches => hcloses ⟨huse, hreaches⟩
      | given =>
        rw [huse] at hrepresents
        exact ⟨_, initializeDB_initialized env stream hrepresents.1⟩
      | own own =>
        rw [huse] at hrepresents
        exact ⟨_, initializeDB_initialized env stream hrepresents.1⟩
    exact .of_run (bind_ok (congrFun hrun heap)) rfl h

theorem cleanup_closed (destroyFails : Bool) (hdb : db.initialized = false) :
    (cleanup destroyFails db : Program _) = pure db := by
  rw [cleanup, if_pos hdb]

theorem cleanup_given (destroyFails : Bool) (hdb : db.initialized = true)
    (howns : db.ownsCudaStream = false) :
    (cleanup destroyFails db : Program _) =
      pure { db with gpuTree := false, memdiskTree := false, initialized := false } := by
  rw [cleanup, if_neg (by rw [hdb]; decide), howns]
  cases db.cudaStream with
  | none => rfl
  | some stream => rfl

theorem cleanup_own (destroyFails : Bool) (hdb : db.initialized = true)
    (howns : db.ownsCudaStream = true) (hstream : db.cudaStream = some stream) :
    (cleanup destroyFails db : Program _) = (do
      destroyStream destroyFails stream
      pure ⟨false, false, none, false, false⟩) := by
  rw [cleanup, if_neg (by rw [hdb]; decide), howns, hstream]

theorem cleanup_steps (destroyFails : Bool) (h : Beside db life frame heap) :
    Steps (cleanup destroyFails db) (life.after (.cleanup destroyFails))
      (life.loses (.cleanup destroyFails)) frame heap := by
  have hrepresents := h.represents
  have hlive := h.live
  rw [Life.after, Life.loses]
  cases huse : life.use with
  | closed =>
    rw [huse] at hrepresents hlive
    exact .of_run (congrFun (cleanup_closed destroyFails hrepresents) heap) rfl
      ⟨hrepresents, h.next, hlive⟩
  | given =>
    rw [huse] at hrepresents hlive
    exact .of_run (congrFun (cleanup_given destroyFails hrepresents.1 hrepresents.2) heap) rfl
      ⟨rfl, h.next, hlive⟩
  | own stream =>
    rw [huse] at hrepresents hlive
    obtain ⟨hdb, howns, hstream⟩ := hrepresents
    rw [cleanup_own destroyFails hdb howns hstream]
    cases destroyFails with
    | true => exact ⟨_, heap, bind_ok rfl, rfl, rfl, h.next, hlive.trans (add_zero _).symm⟩
    | false =>
      have hmem : stream ∈ heap.live := by
        rw [hlive]
        exact Multiset.mem_add.mpr (.inr (Multiset.mem_singleton_self stream))
      have herase : heap.live.erase stream = frame + 0 := by
        rw [hlive, Use.streams, add_comm, Multiset.singleton_add, Multiset.erase_cons_head,
          add_zero]
      refine .of_run (bind_ok (bind_ok (release_of_mem heap hmem))) rfl ⟨rfl, h.next, herase⟩

theorem step_steps (event : Event) (h : Beside db life frame heap) :
    Steps (step db event) (life.after event) (life.loses event) frame heap := by
  cases event with
  | initializeDB env stream => exact initializeDB_steps env stream h
  | cleanup destroyFails => exact cleanup_steps destroyFails h

theorem run_steps (events : List Event) (h : Beside db life frame heap) :
    Steps (run db events) (events.foldl Life.after life) (lostStreams life events) frame heap := by
  induction events generalizing db life frame heap with
  | nil => exact .of_run rfl rfl h
  | cons event events ih =>
    obtain ⟨middle, heap', hstep, hmistakes, hmiddle⟩ := step_steps event h
    obtain ⟨last, after, hrun, hagain, hafter⟩ := ih hmiddle
    refine ⟨last, after, (bind_ok hstep).trans hrun, hagain.trans hmistakes, ?_⟩
    rwa [add_assoc, Multiset.coe_add] at hafter

end Steps

theorem lostStreams_append (life : Life) (events more : List Event) :
    lostStreams life (events ++ more) =
      lostStreams life events ++ lostStreams (events.foldl Life.after life) more := by
  induction events generalizing life with
  | nil => rfl
  | cons event events ih =>
    rw [List.cons_append, lostStreams, lostStreams, ih, List.append_assoc]
    rfl

-- Whatever fails, a DB destroys no stream twice and none that it was given. The streams it leaves
-- are those that its initializations and clean-ups lose, and no other.
theorem streams_after_lifetime (events : List Event) (destroyFails : Bool) (heap : Heap) :
    ∃ after, lifetime events destroyFails heap = .ok () after ∧
      after.mistakes = heap.mistakes ∧
      after.live = heap.live +
        (lostStreams ⟨.closed, heap.next⟩ (events ++ [.cleanup destroyFails]) : Multiset Nat) := by
  have hstart : Beside {} ⟨.closed, heap.next⟩ heap.live heap :=
    ⟨rfl, rfl, (add_zero heap.live).symm⟩
  obtain ⟨db, middle, hrun, hmistakes, hmiddle⟩ := run_steps events hstart
  obtain ⟨closed, after, hcleanup, hagain, hafter⟩ := cleanup_steps destroyFails hmiddle
  refine ⟨after, (bind_ok hrun).trans (bind_ok hcleanup), hagain.trans hmistakes, ?_⟩
  rw [lostStreams_append, lostStreams, lostStreams, List.append_nil, ← Multiset.coe_add,
    ← add_assoc]
  exact hafter.live.trans (add_zero _)

end MlkvPlus.Lifecycle
