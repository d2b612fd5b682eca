import MlkvPlus.MemDisk.Calls
import MlkvPlus.WriteBatch.Sizes

namespace MlkvPlus

open Gds Log WriteBatch

theorem map_snd_numbered (sequenceNumber : Nat) (entries : List Entry) :
    (numbered sequenceNumber entries).map Prod.snd = entries := by
  induction entries generalizing sequenceNumber with
  | nil => rfl
  | cons entry rest ih => rw [numbered, List.map_cons, ih]

theorem length_serializeValueArray [Scalar V] (values : Vector V dim) :
    (serializeValueArray values).length = 8 + Scalar.size V * dim := by
  rw [serializeValueArray, List.length_append, Bytes.length_fixed, length_vectorBytes]

namespace MemDisk

variable {K V : Type} [Scalar K] [Scalar V] {dim : Nat}

def entry (pair : K × Vector V dim) : Entry :=
  ⟨Scalar.toBytes pair.1, serializeValueArray pair.2⟩

theorem put_accepts (hkey : Scalar.size K < 2 ^ 32) (hvalue : 8 + Scalar.size V * dim < 2 ^ 32)
    (batch : List Entry) (key : Bytes) (hlength : key.length = Scalar.size K)
    (values : Vector V dim) :
    WriteBatch.put batch key (serializeValueArray values) =
      .ok (batch ++ [⟨key, serializeValueArray values⟩]) := by
  rw [WriteBatch.put, hlength, length_serializeValueArray, if_neg (by omega), if_neg (by omega)]

theorem put_refuses (hsize : ¬(Scalar.size K < 2 ^ 32 ∧ 8 + Scalar.size V * dim < 2 ^ 32))
    (batch : List Entry) (key : Bytes) (hlength : key.length = Scalar.size K)
    (values : Vector V dim) :
    ∃ message, WriteBatch.put batch key (serializeValueArray values) = .error message := by
  rw [WriteBatch.put, hlength, length_serializeValueArray]
  by_cases hkey : 2 ^ 32 ≤ Scalar.size K
  · exact ⟨_, if_pos hkey⟩
  · exact ⟨_, (if_neg hkey).trans (if_pos (by omega))⟩

theorem eq_singleton_of_put {key : DeviceBuffer (Scalar.size K)} {values : Vector V dim}
    {batch : List Entry} (h : WriteBatch.put [] key.1 (serializeValueArray values) = .ok batch) :
    batch = [⟨key.1, serializeValueArray values⟩] := by
  by_cases hsize : Scalar.size K < 2 ^ 32 ∧ 8 + Scalar.size V * dim < 2 ^ 32
  · rw [put_accepts hsize.1 hsize.2 _ _ key.2] at h
    cases h
    rfl
  · obtain ⟨message, hrefused⟩ := put_refuses hsize [] _ key.2 values
    rw [hrefused] at h
    cases h

theorem buildBatch_of_accepted (hkey : Scalar.size K < 2 ^ 32)
    (hvalue : 8 + Scalar.size V * dim < 2 ^ 32) (pairs : List (K × Vector V dim)) :
    buildBatch pairs = pairs.map entry := by
  have hfold (batch : List Entry) : pairs.foldl addPair batch = batch ++ pairs.map entry := by
    induction pairs generalizing batch with
    | nil => simp
    | cons pair rest ih =>
      have hadd : addPair batch pair = batch ++ [entry pair] := by
        rw [addPair, put_accepts hkey hvalue _ _ (Scalar.length_toBytes _)]
        rfl
      rw [List.foldl_cons, hadd, ih, List.map_cons, List.append_assoc, List.singleton_append]
  exact hfold []

-- All pairs of a call have the same sizes, so WriteBatch::Put takes all of them or none.
theorem buildBatch_eq (pairs : List (K × Vector V dim)) :
    buildBatch pairs = [] ∨ buildBatch pairs = pairs.map entry := by
  by_cases hsize : Scalar.size K < 2 ^ 32 ∧ 8 + Scalar.size V * dim < 2 ^ 32
  · exact .inr (buildBatch_of_accepted hsize.1 hsize.2 pairs)
  · have hfold (batch : List Entry) : pairs.foldl addPair batch = batch := by
      induction pairs generalizing batch with
      | nil => rfl
      | cons pair rest ih =>
        have hadd : addPair batch pair = batch := by
          obtain ⟨message, hput⟩ :=
            put_refuses hsize batch (Scalar.toBytes pair.1) (Scalar.length_toBytes _) pair.2
          rw [addPair, hput]
        rw [List.foldl_cons, hadd, ih]
    exact .inl (hfold [])

theorem recordSize_lt (keySize valueSize : Nat) :
    recordSize keySize valueSize < recordSize keySize (8 + valueSize) := by
  have hmono := varintSize_mono (Nat.le_add_left valueSize 8)
  unfold recordSize
  omega

theorem recordSize_pos (keySize valueSize : Nat) : 0 < recordSize keySize valueSize := by
  unfold recordSize
  omega

-- What RocksDB applied takes more room than the payload: every applied value has the
-- size field that the log leaves out.
structure Applied (operation : Call K V dim) (s s' : MemDisk) (entries : List Entry) : Prop where
  memtable : s'.memtable = s.memtable ++ numbered (s.lastSequence + 1) entries
  nonempty : kWriteBatchHeader < operation.payloadSize
  longer : entries ≠ [] → operation.payloadSize < kWriteBatchHeader +
    (entries.map fun entry => recordSize entry.key.length entry.value.length).sum

theorem put_applied {config : StorageConfig} {env : CallEnv K} {key : K} {values : Vector V dim}
    (hlog : config.enableGdsLog = true)
    (h : put config env s key values = (.returned .SUCCESS, s')) :
    ∃ entries, Applied (.put key values) s s' entries := by
  obtain ⟨batch, s₁, hbatch, hwrite, hlogged⟩ := put_success hlog h
  obtain ⟨_, _, _, hmemtable, _⟩ := logBatch_returned hlogged
  obtain ⟨_, hentries⟩ := write_true hwrite
  have hpos := recordSize_pos (Scalar.size K) (Scalar.size V * dim)
  have hlt := recordSize_lt (Scalar.size K) (Scalar.size V * dim)
  refine ⟨batch, by rw [hmemtable, hentries], Nat.lt_add_of_pos_right hpos, ?_⟩
  intro _
  rw [eq_singleton_of_put hbatch, List.map_singleton, List.sum_singleton, env.keyVariable.2,
    length_serializeValueArray, Call.payloadSize]
  omega

theorem multiset_applied {pairs : List (K × Vector V dim)} (hlog : config.enableGdsLog = true)
    (h : multiset config env s pairs = (.returned .SUCCESS, s')) :
    ∃ entries, Applied (.multiset pairs) s s' entries := by
  obtain ⟨s₁, hne, hlogged, hwrite⟩ := multiset_success hlog h
  obtain ⟨_, _, _, hmemtable, hsequence⟩ := logBatch_returned hlogged
  obtain ⟨_, hentries⟩ := write_true hwrite
  have hpos := recordSize_pos (Scalar.size K) (Scalar.size V * dim)
  have hlt := recordSize_lt (Scalar.size K) (Scalar.size V * dim)
  refine ⟨buildBatch pairs, by rw [hentries, hmemtable, hsequence],
    Nat.lt_add_of_pos_right (Nat.mul_pos hne hpos), ?_⟩
  intro happlied
  have hentry (pair : K × Vector V dim) :
      recordSize (entry pair).key.length (entry pair).value.length =
        recordSize (Scalar.size K) (8 + Scalar.size V * dim) := by
    rw [entry, Scalar.length_toBytes, length_serializeValueArray]
  rw [(buildBatch_eq pairs).resolve_left happlied, List.map_map, Call.payloadSize]
  simp only [Function.comp_def, hentry, List.map_const', List.sum_replicate_nat]
  have hmul := (Nat.mul_lt_mul_left hne).mpr hlt
  omega

-- No call of the tree leaves the log and the memtable in agreement.
theorem not_logAgrees_of_call (config : StorageConfig) (env : CallEnv K) (s s' : MemDisk)
    (operation : Call K V dim) (hlog : config.enableGdsLog = true)
    (h : s.call config env operation = (.returned .SUCCESS, s')) : ¬LogAgrees s s' := by
  have happlied : ∃ entries, Applied operation s s' entries := by
    cases operation with
    | put key values => exact put_applied hlog h
    | multiset pairs => exact multiset_applied hlog h
  obtain ⟨applied, happlied⟩ := happlied
  obtain ⟨payload, happends, hsize⟩ := call_success hlog h
  rintro ⟨wal, payload', sequenceNumber, entries, happended, hdecode, hmemtable⟩
  cases List.append_cancel_left (happends.appended.symm.trans happended)
  have hnumbered := List.append_cancel_left (happlied.memtable.symm.trans hmemtable)
  have hentries : applied = entries := by
    rw [← map_snd_numbered (s.lastSequence + 1) applied, hnumbered, map_snd_numbered]
  subst hentries
  obtain ⟨hsum, hnonempty⟩ := decode_spec hdecode
  rw [hsize] at hsum hnonempty
  have hlonger := happlied.longer (hnonempty happlied.nonempty)
  omega

theorem not_logAgrees_of_multiset_one :
    ∃ s', clearedTree.call { enableGdsLog := true } clearedEnv
        (.multiset [((7 : UInt64), (#v[1] : Vector UInt32 1))]) = (.returned .SUCCESS, s') ∧
      ¬LogAgrees clearedTree s' := by
  obtain ⟨s', h⟩ := multiset_clearedTree [(7, #v[1])] (by decide)
  exact ⟨s', h, not_logAgrees_of_call { enableGdsLog := true } clearedEnv clearedTree s'
    (.multiset [((7 : UInt64), (#v[1] : Vector UInt32 1))]) rfl h⟩

-- The log holds the four bytes of the vector, the memtable holds its size before them.
theorem multiset_log_without_size :
    ∃ s' payload, clearedTree.call { enableGdsLog := true } clearedEnv
        (.multiset [((7 : UInt64), (#v[1] : Vector UInt32 1))]) = (.returned .SUCCESS, s') ∧
      s'.appended = [(4, payload)] ∧
      decode payload = some (1, [⟨[7, 0, 0, 0, 0, 0, 0, 0], [1, 0, 0, 0]⟩]) ∧
      s'.memtable = [(1, ⟨[7, 0, 0, 0, 0, 0, 0, 0], [1, 0, 0, 0, 0, 0, 0, 0, 1, 0, 0, 0]⟩)] ∧
      ¬LogAgrees clearedTree s' := by
  obtain ⟨s', h⟩ := multiset_clearedTree [(7, #v[1])] (by decide)
  obtain ⟨s₁, _, hlogged, hwrite⟩ := multiset_success rfl h
  obtain ⟨payload, hgenerate, happends, hmemtable, hsequence⟩ := logBatch_returned hlogged
  obtain ⟨hrecords, _⟩ := write_frame hwrite
  obtain ⟨_, hentries⟩ := write_true hwrite
  have hpayload : generateTypedWriteBatch clearedEnv.fresh
      [((7 : UInt64), (#v[1] : Vector UInt32 1))] 1 =
      .ok [1, 0, 0, 0, 0, 0, 0, 0, 1, 0, 0, 0, 1, 8, 7, 0, 0, 0, 0, 0, 0, 0, 4, 1, 0, 0, 0] := by
    decide
  cases hgenerate.symm.trans hpayload
  rw [happends.appended] at hrecords
  have hmemtable' : s'.memtable =
      [(1, ⟨[7, 0, 0, 0, 0, 0, 0, 0], [1, 0, 0, 0, 0, 0, 0, 0, 1, 0, 0, 0]⟩)] := by
    rw [hentries, hmemtable, hsequence]
    decide
  have hdecode : decode
      [1, 0, 0, 0, 0, 0, 0, 0, 1, 0, 0, 0, 1, 8, 7, 0, 0, 0, 0, 0, 0, 0, 4, 1, 0, 0, 0] =
      some (1, [⟨[7, 0, 0, 0, 0, 0, 0, 0], [1, 0, 0, 0]⟩]) := by
    decide
  refine ⟨s', _, h, hrecords, hdecode, hmemtable', ?_⟩
  rintro ⟨wal, payload, sequenceNumber, entries, hlog, hdecoded, happlied⟩
  cases hrecords.symm.trans hlog
  cases hdecode.symm.trans hdecoded
  exact absurd (hmemtable'.symm.trans happlied) (by decide)

end MemDisk

end MlkvPlus
