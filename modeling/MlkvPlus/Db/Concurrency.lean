import MlkvPlus.Data.Transition
import MlkvPlus.Db.Steps

namespace MlkvPlus.Concurrency

open Tiered Transition

-- Where a running batch read stands: the missed keys, and then the pairs read for them.
inductive Phase (K V : Type) (dim : Nat) where
  | looked (missed : List K)
  | read (pairs : List (K × Vector V dim))
  | stored (pairs : List (K × Vector V dim))

def Phase.missed {K V : Type} {dim : Nat} : Phase K V dim → List K
  | .looked missed => missed
  | .read pairs => pairs.map Prod.fst
  | .stored pairs => pairs.map Prod.fst

-- `expected` is what had been written when the read started, and `overwritten` are the keys
-- that clients have written since.
structure Read (K V : Type) (dim : Nat) where
  keys : List K
  phase : Phase K V dim
  expected : K → Option (Vector V dim)
  overwritten : List K

structure Answer (K V : Type) (dim : Nat) where
  keys : List K
  found : List (Option (Vector V dim))
  expected : K → Option (Vector V dim)
  overwritten : List K

-- One database, and the batch reads that are running on it. `written` is the vector of the last
-- completed write of each key, and `answers` what the reads have returned.
structure System (Client K V : Type) (dim : Nat) where
  db : DB K V dim
  reads : Client → Option (Read K V dim)
  written : K → Option (Vector V dim)
  answers : List (Answer K V dim)

inductive Action (Client K V : Type) (dim : Nat) (reserved : K → Bool) where
  | multiset (env : WriteEnv reserved V dim) (batch : List (K × Vector V dim))
  | lookup (client : Client) (env : ReadEnv reserved V dim) (keys : List K)
  | readMemDisk (client : Client) (env : ReadEnv reserved V dim)
  | store (client : Client) (env : ReadEnv reserved V dim)
  | answer (client : Client) (env : ReadEnv reserved V dim)
  | flush

variable {Client K V : Type} {dim : Nat} {reserved : K → Bool}

def Read.overwrite (read : Read K V dim) (keys : List K) : Read K V dim :=
  { read with overwritten := keys ++ read.overwritten }

variable [DecidableEq Client] [DecidableEq K]

namespace System

-- A read that the GPU table answers alone is over with its first step.
def lookup (s : System Client K V dim) (client : Client) (env : ReadEnv reserved V dim)
    (keys : List K) : System Client K V dim :=
  if ∀ key ∈ keys, (s.db.gpu key).isSome = true then
    { s with answers := ⟨keys, keys.map s.db.gpu, s.written, []⟩ :: s.answers }
  else
    let missed := DB.missedKeys s.db.config s.db.gpu keys
    { s with
      db := s.db.lookup env keys
      reads := Function.update s.reads client (some ⟨keys, .looked missed, s.written, []⟩) }

theorem reads_lookup_of_ne (s : System Client K V dim) (h : other ≠ client)
    (env : ReadEnv reserved V dim) (keys : List K) :
    (s.lookup client env keys).reads other = s.reads other := by
  rw [lookup]
  split
  · rfl
  · exact Function.update_of_ne h _ _

end System

variable [Scalar K] [Scalar V]

namespace System

-- A write by a client is one step, since it holds operation_mutex_. A failed one leaves nothing
-- to rely on for its keys.
def multiset (s : System Client K V dim) (env : WriteEnv reserved V dim)
    (batch : List (K × Vector V dim)) : System Client K V dim :=
  let reads client := (s.reads client).map fun read => read.overwrite (batch.map Prod.fst)
  match s.db.multiset env batch with
  | (.returned .SUCCESS, db) =>
    { s with db := db, reads := reads, written := writeAll s.written batch }
  | (_, db) =>
    let written key := if key ∈ batch.map Prod.fst then none else s.written key
    { s with db := db, reads := reads, written := written }

def readMemDisk (s : System Client K V dim) (client : Client) (env : ReadEnv reserved V dim)
    (read : Read K V dim) (missed : List K) : System Client K V dim :=
  let next := { read with phase := .read (s.db.readBack env missed) }
  { s with reads := Function.update s.reads client (some next) }

-- The result of the inner write is not looked at, but an exception ends the read.
def store (s : System Client K V dim) (client : Client) (env : ReadEnv reserved V dim)
    (read : Read K V dim) (pairs : List (K × Vector V dim)) : System Client K V dim :=
  match s.db.multiset env.toWriteEnv pairs with
  | (.returned _, db) =>
    { s with
      db := db
      reads := Function.update s.reads client (some { read with phase := .stored pairs }) }
  | (_, db) => { s with db := db, reads := Function.update s.reads client none }

def answer (s : System Client K V dim) (client : Client) (env : ReadEnv reserved V dim)
    (read : Read K V dim) (pairs : List (K × Vector V dim)) : System Client K V dim :=
  let (found, db) := s.db.answer env read.keys pairs
  { s with
    db := db
    reads := Function.update s.reads client none
    answers := ⟨read.keys, found, read.expected, read.overwritten⟩ :: s.answers }

def step (s : System Client K V dim) :
    Action Client K V dim reserved → Option (System Client K V dim)
  | .multiset env batch => some (s.multiset env batch)
  | .lookup client env keys =>
    match s.reads client with
    | some _ => none
    | none =>
      if s.db.initialized = false ∨ keys = [] then none else some (s.lookup client env keys)
  | .readMemDisk client env =>
    match s.reads client with
    | some read@⟨_, .looked missed, _, _⟩ => some (s.readMemDisk client env read missed)
    | _ => none
  | .store client env =>
    match s.reads client with
    | some read@⟨_, .read pairs, _, _⟩ => some (s.store client env read pairs)
    | _ => none
  | .answer client env =>
    match s.reads client with
    | some read@⟨_, .stored pairs, _, _⟩ => some (s.answer client env read pairs)
    | _ => none
  | .flush => some { s with db := { s.db with rocks := s.db.rocks.flush } }

end System

-- Any open database, with no read running.
def machine (Client : Type) [DecidableEq Client] (reserved : K → Bool) (config : StorageConfig) :
    Machine (System Client K V dim) (Action Client K V dim reserved) where
  initial s := s.db.initialized = true ∧ s.db.config = config ∧ (∀ client, s.reads client = none) ∧
    (∀ key, s.written key = none) ∧ s.answers = []
  step := System.step

-- With nobody in between, the four steps are the batch read of the database.
theorem multiget_of_steps {s : System Client K V dim} (henv : env.Works) (hfault : env.fault = none)
    (hopen : s.db.initialized = true) (hidle : s.reads client = none)
    (hmissed : ¬∀ key ∈ keys, (s.db.gpu key).isSome = true) :
    ∃ next found, (machine Client reserved config).exec s
        [.lookup client env keys, .readMemDisk client env, .store client env,
          .answer client env] = some next ∧
      s.db.multiget env keys = (.returned (.SUCCESS, found), next.db) ∧
      next.answers = ⟨keys, found, s.written, []⟩ :: s.answers := by
  have hkeys : keys ≠ [] := by
    rintro rfl
    exact hmissed (List.forall_mem_nil _)
  let answer := (s.db.stored env keys).answer env keys (s.db.backPairs env keys)
  refine ⟨{ s with
    db := answer.2
    reads := Function.update s.reads client none
    answers := ⟨keys, answer.1, s.written, []⟩ :: s.answers }, answer.1, ?_,
    DB.multiget_missed hfault hopen (DB.goesBelow_of_works henv hmissed), rfl⟩
  simp only [Machine.exec, machine, System.step, hidle, hopen, hkeys, System.lookup, if_neg hmissed,
    reduceCtorEq, or_self, if_false, System.readMemDisk, Function.update_self, DB.readBack_lookup,
    System.store, DB.multiset_backPairs env hfault hopen, System.answer,
    Function.update_idem]
  rfl

end MlkvPlus.Concurrency
