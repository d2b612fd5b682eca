import MlkvPlus.Db.Concurrency
import MlkvPlus.Db.Refinement

namespace MlkvPlus

open Tiered Transition

section

variable {K V : Type} {dim : Nat} {reserved : K → Bool} [DecidableEq K] {key : K}
  {values : Vector V dim}

theorem GPUTreeHkv.multisetBuffer_same {env : ReadEnv reserved V dim} {keys : List K}
    {buffer : K → Option (Vector V dim)} {pairs : List (K × Vector V dim)}
    (hkeeps : env.keeps key = true) (hbuffer : buffer key = some values)
    (hpairs : ∀ found, (key, found) ∈ pairs → found = values) :
    multisetBuffer env keys buffer pairs key = some values := by
  refine writeAll_same ?_ fun found hfound => hpairs found (List.mem_filter.mp hfound).1
  rw [if_pos (Or.inr hkeeps), hbuffer]

variable [Scalar K] [Scalar V] {config : StorageConfig} {written : K → Option (Vector V dim)}
  {s : DB K V dim}

-- What is evicted is the last write of its key, or comes in with the batch.
theorem DB.Fresh.stored_written (hdim : dim < 2 ^ 64) (h : Fresh reserved config written s)
    (hwritten : written key = some values)
    (hstored : s.rocks.stored key = some (serializeValueArray values))
    (hinserts : ∀ found, (key, found) ∈ inserts events → found = values) :
    (s.written events).rocks.stored key = some (serializeValueArray values) := by
  rw [DB.written, stored_multiset]
  refine writeAll_encodeAll_same _ hstored fun found hfound => ?_
  rcases run_origin (Or.inr hfound) with hgpu | hmem
  · exact h.gpu hdim hwritten hgpu
  · exact hinserts found hmem

theorem DB.Fresh.buffer_lookup_same (hdim : dim < 2 ^ 64) (h : Fresh reserved config written s)
    {env : ReadEnv reserved V dim} (keys : List K) (hwritten : written key = some values)
    (hkeeps : env.keeps key = true) (hbuffer : s.buffer key = some values) :
    (s.lookup env keys).buffer key = some values := by
  unfold DB.lookup
  dsimp only
  split
  · exact hbuffer
  · exact GPUTreeHkv.multisetBuffer_same hkeeps hbuffer fun found hfound =>
      h.gpu hdim hwritten (DB.mem_foundPairs.mp hfound).2

end

namespace Concurrency

variable {Client K V : Type} {dim : Nat} {reserved : K → Bool}

-- For a key that nobody wrote since the read started, the last write before it is returned.
def Answer.Right (answer : Answer K V dim) : Prop :=
  ∀ (index : Nat) key values, answer.keys[index]? = some key → key ∉ answer.overwritten →
    answer.expected key = some values → answer.found[index]? = some (some values)

-- The buffer keeps what the running reads have put there.
def System.KeepsRunning (s : System Client K V dim) (env : ReadEnv reserved V dim) : Prop :=
  ∀ client read, s.reads client = some read → ∀ key ∈ read.keys, env.keeps key = true

-- No client writes a key that a running read has missed.
def System.Apart (s : System Client K V dim) (batch : List (K × Vector V dim)) : Prop :=
  ∀ client read, s.reads client = some read → ∀ key ∈ batch.map Prod.fst, key ∉ read.phase.missed

def Calm (s : System Client K V dim) : Action Client K V dim reserved → Prop
  | .multiset env batch =>
    env.fault = none ∧ (batch.map Prod.fst).Nodup ∧ (∀ pair ∈ batch, reserved pair.1 = false) ∧
      s.Apart batch
  | .lookup _ env _ => env.Clean ∧ s.KeepsRunning env
  | .readMemDisk _ env => env.Clean
  | .store _ env => env.Clean
  | .answer _ env => env.Clean ∧ s.KeepsRunning env
  | .flush => True

variable [Scalar K] [Scalar V]

-- What a running read carries is still the last write of the missed keys.
def Phase.Fresh (written : K → Option (Vector V dim)) (rocks : RocksDB) : Phase K V dim → Prop
  | .looked missed => ∀ key ∈ missed, ∀ values, written key = some values →
      rocks.stored key = some (serializeValueArray values)
  | .read pairs | .stored pairs => ∀ key found values, (key, found) ∈ pairs →
      written key = some values → found = values

structure Read.Fresh (written : K → Option (Vector V dim)) (db : DB K V dim)
    (read : Read K V dim) : Prop where
  expected : ∀ key values, key ∉ read.overwritten → read.expected key = some values →
    written key = some values
  missed : read.phase.Fresh written db.rocks
  found : ∀ key values, key ∈ read.keys → key ∉ read.phase.missed → key ∉ read.overwritten →
    written key = some values → db.buffer key = some values

structure System.Fresh (reserved : K → Bool) (config : StorageConfig)
    (s : System Client K V dim) : Prop where
  db : s.db.Fresh reserved config s.written
  reads : ∀ client read, s.reads client = some read → read.Fresh s.written s.db
  answers : ∀ answer ∈ s.answers, answer.Right

variable {written : K → Option (Vector V dim)} {db next : DB K V dim} {read : Read K V dim}

theorem Phase.Fresh.mono {phase : Phase K V dim} (h : phase.Fresh written rocks)
    (hwritten : ∀ key ∈ phase.missed, ∀ values, after key = some values →
      written key = some values)
    (hrocks : ∀ key ∈ phase.missed, ∀ values, written key = some values →
      rocks.stored key = some (serializeValueArray values) →
      rocks'.stored key = some (serializeValueArray values)) : phase.Fresh after rocks' := by
  cases phase with
  | looked missed =>
    intro key hkey values hafter
    have hbefore := hwritten key hkey values hafter
    exact hrocks key hkey values hbefore (h key hkey values hbefore)
  | read pairs =>
    exact fun key found values hpair hafter =>
      h key found values hpair (hwritten key (List.mem_map_of_mem hpair) values hafter)
  | stored pairs =>
    exact fun key found values hpair hafter =>
      h key found values hpair (hwritten key (List.mem_map_of_mem hpair) values hafter)

theorem Read.Fresh.transfer (h : read.Fresh written db)
    (hrocks : ∀ key values, written key = some values →
      db.rocks.stored key = some (serializeValueArray values) →
      next.rocks.stored key = some (serializeValueArray values))
    (hbuffer : ∀ key ∈ read.keys, ∀ values, written key = some values →
      db.buffer key = some values → next.buffer key = some values) :
    read.Fresh written next :=
  ⟨h.expected, h.missed.mono (fun _ _ _ => id) fun key _ => hrocks key,
    fun key values hkey hmissed hover hwritten =>
      hbuffer key hkey values hwritten (h.found key values hkey hmissed hover hwritten)⟩

variable {config : StorageConfig} {s : System Client K V dim}

theorem System.Fresh.flush (h : s.Fresh reserved config) :
    System.Fresh reserved config { s with db := { s.db with rocks := s.db.rocks.flush } } := by
  refine ⟨h.db.flush, fun client read hread => ?_, h.answers⟩
  refine (h.reads client read hread).transfer (fun key values _ hstored => ?_)
    fun key _ values _ hbuffer => hbuffer
  exact (congrFun (stored_flush s.db.rocks) key).trans hstored

section

variable [DecidableEq Client]

theorem fresh_update (hreads : ∀ client read, reads client = some read → read.Fresh written db)
    (hchanged : ∀ read ∈ changed, read.Fresh written db) (other : Client) (read : Read K V dim)
    (hread : Function.update reads client changed other = some read) : read.Fresh written db := by
  rcases some_of_update hread with hnew | hold
  · exact hchanged read hnew
  · exact hreads other read hold

theorem System.Fresh.readMemDisk (hdim : dim < 2 ^ 64) (h : s.Fresh reserved config)
    {env : ReadEnv reserved V dim} (henv : env.Clean) {client : Client} {missed : List K}
    (hread : s.reads client = some read) (hphase : read.phase = .looked missed) :
    (s.readMemDisk client env read missed).Fresh reserved config := by
  have hfresh := h.reads client read hread
  have hmissed := hfresh.missed
  rw [hphase] at hmissed
  refine ⟨h.db, fresh_update h.reads ?_, h.answers⟩
  rintro next ⟨rfl⟩
  refine ⟨hfresh.expected, fun key found values hpair hwritten => ?_,
    fun key values hkey hkeyMissed => ?_⟩
  · have hkey : key ∈ missed := by
      rw [← DB.map_fst_readBack env s.db missed]
      exact List.mem_map_of_mem hpair
    rw [DB.readBack, if_neg (by rw [h.db.sameConfig, h.db.plain]; decide)] at hpair
    exact MemDiskTree.mem_multiget hdim henv hpair (hmissed key hkey values hwritten)
  · refine hfresh.found key values hkey ?_
    rw [hphase]
    rwa [Phase.missed, DB.map_fst_readBack] at hkeyMissed

end

variable [DecidableEq K]

theorem Read.Fresh.overwrite (hdim : dim < 2 ^ 64) (h : read.Fresh written db)
    (hdb : db.Fresh reserved config written) {batch : List (K × Vector V dim)}
    (hapart : ∀ key ∈ batch.map Prod.fst, key ∉ read.phase.missed)
    (hevents : ∀ pair ∈ inserts events, pair ∈ batch) :
    (read.overwrite (batch.map Prod.fst)).Fresh (writeAll written batch) (db.written events) := by
  have hsame : ∀ key ∉ batch.map Prod.fst, writeAll written batch key = written key :=
    fun key hkey => writeAll_of_notMem hkey
  refine ⟨fun key values hover hexpected => ?_, ?_, fun key values hkey hmissed hover hwritten => ?_⟩
  · obtain ⟨hbatch, hold⟩ := not_or.mp (List.mem_append.not.mp hover)
    rw [hsame key hbatch]
    exact h.expected key values hold hexpected
  · have hbatch : ∀ key ∈ read.phase.missed, key ∉ batch.map Prod.fst :=
      fun key hkey hbatch => hapart key hbatch hkey
    refine h.missed.mono (fun key hkey values hwritten => ?_) fun key hkey values hwritten hstored => ?_
    · rwa [hsame key (hbatch key hkey)] at hwritten
    · exact hdb.stored_written hdim hwritten hstored fun found hfound =>
        absurd (List.mem_map_of_mem (hevents _ hfound)) (hbatch key hkey)
  · obtain ⟨hbatch, hold⟩ := not_or.mp (List.mem_append.not.mp hover)
    rw [hsame key hbatch] at hwritten
    exact h.found key values hkey hmissed hold hwritten

theorem System.Fresh.multiset (hdim : dim < 2 ^ 64) (h : s.Fresh reserved config)
    {env : WriteEnv reserved V dim} (hfault : env.fault = none)
    (hnodup : (batch.map Prod.fst).Nodup) (hbatch : ∀ pair ∈ batch, reserved pair.1 = false)
    (hapart : s.Apart batch) : (s.multiset env batch).Fresh reserved config := by
  obtain ⟨events, hwrite, hevents⟩ := DB.multiset_success batch hfault h.db.isOpen
  have hdb := h.db.multiset hfault hnodup hbatch
  rw [hwrite] at hdb
  rw [System.multiset, hwrite]
  refine ⟨hdb, fun client read hread => ?_, h.answers⟩
  obtain ⟨old, hold, rfl⟩ := Option.map_eq_some_iff.mp hread
  exact (h.reads client old hold).overwrite hdim h.db (hapart client old hold) hevents

variable [DecidableEq Client]

theorem System.Fresh.lookup (hdim : dim < 2 ^ 64) (h : s.Fresh reserved config)
    {env : ReadEnv reserved V dim} (hkeeps : s.KeepsRunning env) (client : Client)
    (keys : List K) : (s.lookup client env keys).Fresh reserved config := by
  rw [System.lookup]
  split
  · rename_i hfound
    refine ⟨h.db, h.reads, List.forall_mem_cons.mpr ⟨?_, h.answers⟩⟩
    intro index key values hindex _ hwritten
    obtain ⟨found, hgpu⟩ := Option.isSome_iff_exists.mp (hfound key (List.mem_of_getElem? hindex))
    obtain rfl := h.db.gpu hdim hwritten hgpu
    exact (List.getElem?_map ..).trans (by rw [hindex, Option.map_some, hgpu])
  · have hrocks : (s.db.lookup env keys).rocks = s.db.rocks := by rw [DB.lookup_eq]
    refine ⟨h.db.lookup env keys, fresh_update ?_ ?_, h.answers⟩
    · intro other read hread
      refine (h.reads other read hread).transfer (fun key values _ hstored => ?_)
        fun key hkey values hwritten hbuffer => ?_
      · rwa [hrocks]
      · exact h.db.buffer_lookup_same hdim keys hwritten (hkeeps other read hread key hkey) hbuffer
    · rintro read ⟨rfl⟩
      refine ⟨fun key values _ hexpected => hexpected, fun key hkey values hwritten => ?_,
        fun key values hkey hmissed _ hwritten => ?_⟩
      · rw [hrocks]
        exact h.db.rocks hwritten (DB.mem_missedKeys.mp hkey).2
      · cases hgpu : s.db.gpu key with
        | none => exact absurd (DB.mem_missedKeys.mpr ⟨hkey, hgpu⟩) hmissed
        | some found =>
          obtain rfl := h.db.gpu hdim hwritten hgpu
          exact DB.buffer_lookup hkey hgpu (h.db.unreserved key found hwritten)

theorem System.Fresh.store (hdim : dim < 2 ^ 64) (h : s.Fresh reserved config)
    {env : ReadEnv reserved V dim} (henv : env.Clean) {client : Client}
    {pairs : List (K × Vector V dim)} (hread : s.reads client = some read)
    (hphase : read.phase = .read pairs) :
    (s.store client env read pairs).Fresh reserved config := by
  have hfresh := h.reads client read hread
  have hpairs := hfresh.missed
  rw [hphase] at hpairs
  obtain ⟨events, hwrite, hevents⟩ := DB.multiset_success pairs henv.fault h.db.isOpen
  have hinserts : ∀ key found values, (key, found) ∈ inserts events →
      s.written key = some values → found = values := fun key found values hfound =>
    hpairs key found values (hevents _ hfound)
  have hreads : ∀ other read, s.reads other = some read →
      read.Fresh s.written (s.db.written events) := by
    intro other read hread
    refine (h.reads other read hread).transfer (fun key values hwritten hstored => ?_)
      fun key _ values _ hbuffer => hbuffer
    exact h.db.stored_written hdim hwritten hstored fun found hfound =>
      hinserts key found values hfound hwritten
  rw [System.store, hwrite]
  refine ⟨h.db.written hinserts, fresh_update hreads ?_, h.answers⟩
  rintro next ⟨rfl⟩
  have hcurrent := hreads client read hread
  refine ⟨hcurrent.expected, hpairs, ?_⟩
  have hfound := hcurrent.found
  rwa [hphase] at hfound

theorem System.Fresh.answer (h : s.Fresh reserved config) {env : ReadEnv reserved V dim}
    (hkeeps : s.KeepsRunning env) (hread : s.reads client = some read)
    (hphase : read.phase = .stored pairs) :
    (s.answer client env read pairs).Fresh reserved config := by
  have hfresh := h.reads client read hread
  have hpairs := hfresh.missed
  rw [hphase] at hpairs
  refine ⟨h.db.withBuffer _, fresh_update ?_ nofun, List.forall_mem_cons.mpr ⟨?_, h.answers⟩⟩
  · intro other read' hother
    refine (h.reads other read' hother).transfer (fun key values _ hstored => hstored)
      fun key hkey values hwritten hbuffer => ?_
    exact GPUTreeHkv.multisetBuffer_same (hkeeps other read' hother key hkey) hbuffer
      fun found hfound => hpairs key found values hfound hwritten
  · intro index key values hindex hover hexpected
    have hkey := List.mem_of_getElem? hindex
    have hwritten := hfresh.expected key values hover hexpected
    have hbuffer : GPUTreeHkv.multisetBuffer env read.keys s.db.buffer pairs key = some values := by
      by_cases hmem : key ∈ pairs.map Prod.fst
      · obtain ⟨found, hfound, hbuffer⟩ := GPUTreeHkv.multisetBuffer_of_mem env read.keys
          s.db.buffer hmem (h.db.unreserved key values hwritten)
        rw [hbuffer, hpairs key found values hfound hwritten]
      · rw [GPUTreeHkv.multisetBuffer_of_notMem hkey hmem]
        exact hfresh.found key values hkey (by rwa [hphase]) hover hwritten
    exact (List.getElem?_map ..).trans (by rw [hindex, Option.map_some, hbuffer])

theorem System.Fresh.step (hdim : dim < 2 ^ 64) (h : s.Fresh reserved config)
    {action : Action Client K V dim reserved} {next : System Client K V dim}
    (hcalm : Calm s action) (hstep : s.step action = some next) : next.Fresh reserved config := by
  cases action with
  | multiset env batch =>
    cases hstep
    exact h.multiset hdim hcalm.1 hcalm.2.1 hcalm.2.2.1 hcalm.2.2.2
  | lookup client env keys =>
    rw [System.step] at hstep
    split at hstep
    · cases hstep
    · split at hstep
      · cases hstep
      · cases hstep
        exact h.lookup hdim hcalm.2 client keys
  | readMemDisk client env =>
    rw [System.step] at hstep
    split at hstep
    · rename_i hread
      cases hstep
      exact h.readMemDisk hdim hcalm hread rfl
    · cases hstep
  | store client env =>
    rw [System.step] at hstep
    split at hstep
    · rename_i hread
      cases hstep
      exact h.store hdim hcalm hread rfl
    · cases hstep
  | answer client env =>
    rw [System.step] at hstep
    split at hstep
    · rename_i hread
      cases hstep
      exact h.answer hcalm.2 hread rfl
    · cases hstep
  | flush =>
    cases hstep
    exact h.flush

-- In every interleaving in which no client writes a key that a running read has missed, the
-- reads return the last completed write.
theorem answers_right (hdim : dim < 2 ^ 64) {config : StorageConfig}
    (hplain : config.enableGdsGetFromSst = false) {s : System Client K V dim}
    (h : (machine Client reserved config).Reachable Calm s) :
    ∀ answer ∈ s.answers, answer.Right := by
  have hfresh : s.Fresh reserved config := by
    refine h.invariant (fun start hstart => ?_) fun before action after hbefore hcalm hstep =>
      hbefore.step hdim hcalm hstep
    obtain ⟨hopen, hconfig, hidle, hnone, hanswers⟩ := hstart
    refine ⟨⟨hopen, hconfig, hplain, ?_, ?_⟩, ?_, ?_⟩
    · intro key values hwritten
      rw [hnone] at hwritten
      cases hwritten
    · intro key values hwritten
      rw [hnone] at hwritten
      cases hwritten
    · intro client read hread
      rw [hidle] at hread
      cases hread
    · rw [hanswers]
      exact List.forall_mem_nil _
  exact hfresh.answers

def opened : System Nat UInt64 UInt32 1 := ⟨.opened {}, fun _ => none, fun _ => none, []⟩

def keeping (dropped : List UInt64) : ReadEnv (fun _ : UInt64 => false) UInt32 1 :=
  .dropping _ dropped none

-- A write of another key inside the read.
def writeBeside : List (Action Nat UInt64 UInt32 1 fun _ => false) :=
  [.multiset (keeping [7]).toWriteEnv [(7, #v[1])], .lookup 0 (keeping []) [8, 7],
    .multiset (keeping []).toWriteEnv [(9, #v[2])], .readMemDisk 0 (keeping []),
    .store 0 (keeping []), .answer 0 (keeping [])]

theorem answers_right_write_beside :
    ∃ s, (machine Nat (fun _ => false) {}).exec opened writeBeside = some s ∧
      s.answers.length = 1 ∧ s.written 7 = some #v[1] ∧ ∀ answer ∈ s.answers, answer.Right := by
  have hclean : ∀ dropped, (keeping dropped).Clean := ReadEnv.clean_dropping
  have hcalm : (machine Nat (fun _ => false) {}).Allows Calm opened writeBeside := by
    refine .cons ⟨rfl, by decide, fun _ _ => rfl, nofun⟩ rfl <|
      .cons ⟨hclean _, fun _ _ _ _ _ => rfl⟩ rfl <|
      .cons ⟨rfl, by decide, fun _ _ => rfl, fun client read hread => ?_⟩ rfl <|
      .cons (hclean _) rfl <| .cons (hclean _) rfl <|
      .cons ⟨hclean _, fun _ _ _ _ _ => rfl⟩ rfl trivial
    by_cases hclient : client = 0
    · subst hclient
      cases hread
      change ∀ key ∈ ([9] : List UInt64), key ∉ ([8, 7] : List UInt64)
      simp
    · rw [System.reads_lookup_of_ne _ hclient] at hread
      cases hread
  exact ⟨_, rfl, rfl, rfl, answers_right (by decide) rfl
    (.exec writeBeside (.start ⟨rfl, rfl, fun _ => rfl, fun _ => rfl, rfl⟩) hcalm rfl)⟩

-- Client 0 reads the old vector of a key, a client writes the key, and client 0 stores the old
-- vector back over the new one: client 1 gets the old one.
def writeInside : List (Action Nat UInt64 UInt32 1 fun _ => false) :=
  [.multiset (keeping [7]).toWriteEnv [(7, #v[1])], .lookup 0 (keeping []) [7],
    .readMemDisk 0 (keeping []), .multiset (keeping []).toWriteEnv [(7, #v[2])],
    .store 0 (keeping []), .answer 0 (keeping []), .lookup 1 (keeping []) [7]]

theorem not_right_of_write_inside :
    ∃ s, (machine Nat (fun _ => false) {}).exec opened writeInside = some s ∧
      (machine Nat (fun _ : UInt64 => false) {}).Reachable (fun _ _ => True) s ∧
      ∃ answer ∈ s.answers, answer.keys = [7] ∧ answer.overwritten = [] ∧
        answer.expected 7 = some #v[2] ∧ answer.found = [some #v[1]] ∧ ¬answer.Right := by
  have hinitial : (machine Nat (fun _ : UInt64 => false) {}).initial opened :=
    ⟨rfl, rfl, fun _ => rfl, fun _ => rfl, rfl⟩
  refine ⟨_, rfl, .exec writeInside (.start hinitial) (Machine.allows_true _ _ _) rfl, _,
    List.mem_cons_self, rfl, rfl, rfl, rfl, fun hright => ?_⟩
  have hfound := hright 0 7 #v[2] rfl List.not_mem_nil rfl
  exact absurd hfound (by decide)

end Concurrency

end MlkvPlus
