import Mathlib.Data.Nat.Log
import MlkvPlus.Data.Buckets
import MlkvPlus.Db.UniqueKeys

namespace MlkvPlus

open Tiered

variable {K V : Type} {dim : Nat} {reserved : K → Bool}

namespace GPUTreeHkv

-- The capacity that the lookup buffer is opened with: one allocation is one bucket of 128 slots.
def bufferCapacity (maxBatchSize : Nat) : Nat := if maxBatchSize ≥ 128 then maxBatchSize else 128

-- HKV doubles the number of buckets until they have room for the capacity.
def bufferBuckets (maxBatchSize : Nat) : Nat :=
  2 ^ Nat.clog 2 ((bufferCapacity maxBatchSize + 127) / 128)

theorem bufferCapacity_le (maxBatchSize : Nat) :
    bufferCapacity maxBatchSize ≤ 128 * bufferBuckets maxBatchSize := by
  have hpow := Nat.le_pow_clog Nat.one_lt_two ((bufferCapacity maxBatchSize + 127) / 128)
  rw [← bufferBuckets] at hpow
  omega

theorem bufferBuckets_le (h : bufferCapacity maxBatchSize ≤ 128 * 2 ^ exponent) :
    bufferBuckets maxBatchSize ≤ 2 ^ exponent := by
  refine Nat.pow_le_pow_right Nat.two_pos (Nat.clog_le_of_le_pow ?_)
  omega

-- The lookup buffer as HKV keeps it.
abbrev LookupBuffer (maxBatchSize : Nat) (hash : K → Fin (bufferBuckets maxBatchSize)) (V : Type)
    (dim : Nat) :=
  Buckets.Table hash 128 (Vector V dim)

variable [DecidableEq K] {maxBatchSize : Nat} {hash : K → Fin (bufferBuckets maxBatchSize)}

-- insert_or_assign of one array, in the order in which the threads get to the buckets.
def insertBuffer (reserved : K → Bool) (buffer : LookupBuffer maxBatchSize hash V dim)
    (pairs : List (K × Vector V dim)) : LookupBuffer maxBatchSize hash V dim :=
  buffer.insertAll (pairs.filter fun pair => reserved pair.1 = false)

theorem foldl_insertBuffer (buffer : LookupBuffer maxBatchSize hash V dim)
    (arrays : List (List (K × Vector V dim))) :
    arrays.foldl (insertBuffer reserved) buffer =
      buffer.insertAll (arrays.flatten.filter fun pair => reserved pair.1 = false) := by
  induction arrays generalizing buffer with
  | nil => rfl
  | cons pairs rest ih =>
    rw [List.foldl_cons, ih, List.flatten_cons, List.filter_append,
      Buckets.Table.insertAll_append]
    rfl

theorem multisetBuffer_of_other (env : ReadEnv reserved V dim) (buffer : K → Option (Vector V dim))
    (hcurrent : key ∉ current) (hpairs : key ∉ pairs.map Prod.fst) :
    multisetBuffer env current buffer pairs key =
      if env.keeps key = true then buffer key else none := by
  have hkept : key ∉ (pairs.filter fun pair => reserved pair.1 = false).map Prod.fst :=
    fun hmem => hpairs (List.map_subset _ (List.filter_subset_self _) hmem)
  rw [multisetBuffer, writeAll_of_notMem hkept]
  simp only [hcurrent, false_or]

end GPUTreeHkv

open GPUTreeHkv

variable [DecidableEq K] [Scalar K] [Scalar V]

def TableCall.bufferPairs : TableCall K V dim → Option (List (K × Vector V dim))
  | .multiset _ => none
  | .multisetBuffer _ pairs => some pairs

namespace DB

def bufferArrays (env : ReadEnv reserved V dim) (s : DB K V dim) (keys : List K) :
    List (List (K × Vector V dim)) :=
  (s.tableCalls env keys).filterMap TableCall.bufferPairs

-- The read goes past the GPU table and comes to the final lookup in the buffer.
def AsksBuffer (env : ReadEnv reserved V dim) (s : DB K V dim) (keys : List K) : Prop :=
  ¬s.saysAllFound env keys ∧ ∃ answer, (s.multiget env keys).1 = .returned answer

variable {env : ReadEnv reserved V dim} {s : DB K V dim} {keys : List K}

theorem AsksBuffer.initialized (h : s.AsksBuffer env keys) : s.initialized = true := by
  obtain ⟨-, answer, hanswer⟩ := h
  by_contra hclosed
  rw [multiget, if_pos (.inl (Bool.eq_false_of_not_eq_true hclosed))] at hanswer
  cases hanswer

theorem asksBuffer_of_missed (henv : env.Works) (hfault : env.fault = none)
    (hopen : s.initialized = true) (hmissed : ¬∀ key ∈ keys, (s.gpu key).isSome = true) :
    s.AsksBuffer env keys := by
  have hbelow : s.GoesBelow env keys := goesBelow_of_works henv hmissed
  refine ⟨hbelow.missed, ?_⟩
  rw [multiget_missed hfault hopen hbelow]
  exact ⟨_, rfl⟩

theorem AsksBuffer.goesBelow (h : s.AsksBuffer env keys) : s.GoesBelow env keys := by
  have hopen := h.initialized
  obtain ⟨hmissed, answer, hanswer⟩ := h
  have hkeys : keys ≠ [] := by
    intro hnil
    rw [multiget, if_pos (.inr hnil)] at hanswer
    cases hanswer
  refine ⟨hkeys, hmissed, fun hcrash => ?_⟩
  rw [multiget_crashed hopen hkeys hmissed hcrash] at hanswer
  cases hanswer

theorem AsksBuffer.multiset (h : s.AsksBuffer env keys) :
    ∃ result t, (s.lookup env keys).multiset env.toWriteEnv (s.backPairs env keys) =
      (.returned result, t) := by
  obtain ⟨answer, hanswer⟩ := h.2
  rw [multiget_eq h.initialized h.goesBelow] at hanswer
  generalize (s.lookup env keys).multiset env.toWriteEnv (s.backPairs env keys) = written
    at hanswer ⊢
  obtain ⟨result, t⟩ := written
  cases result with
  | returned result => exact ⟨result, t, rfl⟩
  | threw what => cases hanswer
  | aborted reason => cases hanswer

theorem AsksBuffer.bufferArrays_eq (h : s.AsksBuffer env keys) :
    s.bufferArrays env keys =
      (if foundPairs s.gpu keys = [] then [] else [foundPairs s.gpu keys]) ++
        [s.backPairs env keys] := by
  obtain ⟨result, t, hwritten⟩ := h.multiset
  rw [bufferArrays, tableCalls_of_below h.initialized h.goesBelow, hwritten, List.filterMap_append]
  split
  · rfl
  · rfl

theorem AsksBuffer.flatten_bufferArrays (h : s.AsksBuffer env keys) :
    (s.bufferArrays env keys).flatten = foundPairs s.gpu keys ++ s.backPairs env keys := by
  rw [h.bufferArrays_eq]
  split
  case isTrue hnone =>
    rw [hnone]
    simp
  case isFalse => simp

omit [Scalar K] [Scalar V] in
theorem missedKeys_of_nodup (config : StorageConfig) (table : K → Option (Vector V dim))
    (hkeys : keys.Nodup) :
    missedKeys config table keys = keys.filter fun key => (table key).isNone := by
  rw [missedKeys, (hkeys.filter _).dedup, ite_self]

theorem AsksBuffer.pairs_perm (h : s.AsksBuffer env keys)
    (harrays : List.Forall₂ List.Perm arrays (s.bufferArrays env keys)) :
    arrays.flatten.Perm (foundPairs s.gpu keys ++ s.backPairs env keys) := by
  rw [← h.flatten_bufferArrays]
  exact List.Perm.flatten_congr harrays

theorem AsksBuffer.keys_perm (h : s.AsksBuffer env keys) (hkeys : keys.Nodup)
    (harrays : List.Forall₂ List.Perm arrays (s.bufferArrays env keys)) :
    (arrays.flatten.map Prod.fst).Perm keys := by
  refine ((h.pairs_perm harrays).map Prod.fst).trans ?_
  rw [List.map_append, map_fst_foundPairs, backPairs, map_fst_readBack,
    missedKeys_of_nodup s.config s.gpu hkeys]
  have hsplit := List.filter_append_perm (fun key => (s.gpu key).isSome) keys
  simpa only [Option.not_isSome] using hsplit

variable {maxBatchSize : Nat} {hash : K → Fin (bufferBuckets maxBatchSize)}

theorem AsksBuffer.find_isSome_iff (h : s.AsksBuffer env keys) (hkeys : keys.Nodup)
    (buffer : LookupBuffer maxBatchSize hash V dim)
    (harrays : List.Forall₂ List.Perm arrays (s.bufferArrays env keys)) :
    (∀ key ∈ keys.filter fun key => reserved key = false,
        ((arrays.foldl (insertBuffer reserved) buffer).find key).isSome = true) ↔
      ∀ index, ((keys.filter fun key => reserved key = false).filter
        fun key => hash key = index).length ≤ 128 := by
  rw [foldl_insertBuffer]
  have hfst : ((arrays.flatten.filter fun pair => reserved pair.1 = false).map Prod.fst).Perm
      (keys.filter fun key => reserved key = false) := by
    have hfilter := (h.keys_perm hkeys harrays).filter fun key => decide (reserved key = false)
    rwa [List.filter_map] at hfilter
  have hdistinct := hfst.nodup_iff.mpr (hkeys.filter _)
  have hfound := buffer.find_insertAll_isSome_iff hdistinct
  generalize arrays.flatten.filter (fun pair => decide (reserved pair.1 = false)) = entries at *
  have hlength : ∀ index, (entries.filter fun entry => hash entry.1 = index).length =
      ((keys.filter fun key => reserved key = false).filter fun key => hash key = index).length := by
    intro index
    rw [← (hfst.filter fun key => decide (hash key = index)).length_eq, List.filter_map,
      List.length_map]
    rfl
  simp only [hlength] at hfound
  rw [← hfound]
  constructor
  · intro hall entry hentry
    exact hall entry.1 (hfst.mem_iff.mp (List.mem_map_of_mem hentry))
  · intro hall key hkey
    obtain ⟨entry, hentry, rfl⟩ := List.mem_map.mp (hfst.mem_iff.mpr hkey)
    exact hall entry hentry

theorem AsksBuffer.multiget_eq_answer (h : s.AsksBuffer env keys) :
    ∃ t : DB K V dim, t.buffer = (s.lookup env keys).buffer ∧
      (s.multiget env keys).2 = (t.answer env keys (s.backPairs env keys)).2 := by
  obtain ⟨result, t, hwritten⟩ := h.multiset
  refine ⟨t, ?_, ?_⟩
  · have hbuffer : ((s.lookup env keys).multiset env.toWriteEnv (s.backPairs env keys)).2.buffer =
        (s.lookup env keys).buffer := by
      rw [multiset_eq]
    rwa [hwritten] at hbuffer
  · rw [multiget_eq h.initialized h.goesBelow, hwritten]

theorem AsksBuffer.buffer_of_mem (h : s.AsksBuffer env keys) (hkey : key ∈ keys)
    (hreserved : reserved key = false) :
    ∃ values, (key, values) ∈ foundPairs s.gpu keys ++ s.backPairs env keys ∧
      (s.multiget env keys).2.buffer key = some values := by
  obtain ⟨t, ht, heq⟩ := h.multiget_eq_answer
  rw [heq]
  cases hgpu : s.gpu key with
  | some values =>
    exact ⟨values, List.mem_append_left _ (mem_foundPairs.mpr ⟨hkey, hgpu⟩),
      answer_of_gpu ht hkey hgpu hreserved⟩
  | none =>
    obtain ⟨values, hmem, hvalues⟩ := answer_of_missed env t hkey hgpu hreserved
    exact ⟨values, List.mem_append_right _ hmem, hvalues⟩

theorem AsksBuffer.buffer_of_notMem (h : s.AsksBuffer env keys) (hkey : key ∉ keys) :
    (s.multiget env keys).2.buffer key = if env.keeps key = true then s.buffer key else none := by
  obtain ⟨t, ht, heq⟩ := h.multiget_eq_answer
  have hback : key ∉ (s.backPairs env keys).map Prod.fst := by
    rw [backPairs, map_fst_readBack, mem_missedKeys]
    exact fun hmem => hkey hmem.1
  have hfound : key ∉ (foundPairs s.gpu keys).map Prod.fst := by
    rw [map_fst_foundPairs]
    exact fun hmem => hkey (List.mem_filter.mp hmem).1
  rw [heq]
  refine (multisetBuffer_of_other env t.buffer hkey hback).trans ?_
  rw [ht]
  by_cases hkeeps : env.keeps key = true
  · rw [if_pos hkeeps, if_pos hkeeps, lookup]
    split
    · rfl
    · exact (multisetBuffer_of_other env s.buffer List.not_mem_nil hfound).trans (if_pos hkeeps)
  · rw [if_neg hkeeps, if_neg hkeeps]

-- Where every bucket has room, the buffer of the abstract reads is this table: the entries that
-- the reads keep are the ones that the table still has.
theorem AsksBuffer.buffer_multiget (h : s.AsksBuffer env keys) (hkeys : keys.Nodup)
    (hreserved : ∀ key ∈ keys, reserved key = false) {buffer : LookupBuffer maxBatchSize hash V dim}
    (hbuffer : s.buffer = buffer.find)
    (harrays : List.Forall₂ List.Perm arrays (s.bufferArrays env keys))
    (hfits : ∀ index, (keys.filter fun key => hash key = index).length ≤ 128)
    (hkeeps : ∀ key, env.keeps key =
      ((arrays.foldl (insertBuffer reserved) buffer).find key).isSome) :
    (s.multiget env keys).2.buffer = (arrays.foldl (insertBuffer reserved) buffer).find := by
  have hperm := h.keys_perm hkeys harrays
  have hafter : arrays.foldl (insertBuffer reserved) buffer = buffer.insertAll arrays.flatten := by
    rw [foldl_insertBuffer, List.filter_eq_self.mpr]
    intro pair hpair
    exact decide_eq_true (hreserved pair.1 (hperm.mem_iff.mp (List.mem_map_of_mem hpair)))
  have hfound := h.find_isSome_iff hkeys buffer harrays
  rw [List.filter_eq_self.mpr fun key hkey => decide_eq_true (hreserved key hkey)] at hfound
  have hpresent := hfound.mpr hfits
  rw [hafter] at hkeeps hpresent ⊢
  funext key
  by_cases hkey : key ∈ keys
  · obtain ⟨values, hmem, hvalues⟩ := h.buffer_of_mem hkey (hreserved key hkey)
    obtain ⟨other, hother⟩ := Option.isSome_iff_exists.mp (hpresent key hkey)
    have hwrite := Buckets.Table.find_insertAll hother
    rw [writeAll_of_nodup (hperm.nodup_iff.mpr hkeys)
      ((h.pairs_perm harrays).mem_iff.mpr hmem)] at hwrite
    rw [hvalues, hother, hwrite]
  · rw [h.buffer_of_notMem hkey, hkeeps, hbuffer]
    cases hother : (buffer.insertAll arrays.flatten).find key with
    | none => rfl
    | some values =>
      have hwrite := Buckets.Table.find_insertAll hother
      rwa [writeAll_of_notMem fun hmem => hkey (hperm.mem_iff.mp hmem)] at hwrite

-- The buffer has room for `maxBatchSize` entries, but a bucket has 128 slots: the batch is there
-- in the end if and only if no bucket gets more than 128 of its keys. A batch of 128 keys fits
-- under every hash. (Reserved keys never come in.)
theorem multiget_buffer_holds_iff (maxBatchSize : Nat)
    (hash : K → Fin (bufferBuckets maxBatchSize)) (buffer : LookupBuffer maxBatchSize hash V dim)
    (env : ReadEnv reserved V dim) (s : DB K V dim) (keys : List K) (hkeys : keys.Nodup)
    (hlength : keys.length ≤ maxBatchSize) (hasks : s.AsksBuffer env keys)
    (arrays : List (List (K × Vector V dim)))
    (harrays : List.Forall₂ List.Perm arrays (s.bufferArrays env keys)) :
    ((∀ key ∈ keys.filter fun key => reserved key = false,
        ((arrays.foldl (insertBuffer reserved) buffer).find key).isSome = true) ↔
      ∀ index, ((keys.filter fun key => reserved key = false).filter
        fun key => hash key = index).length ≤ 128) ∧
    (maxBatchSize ≤ 128 → ∀ key ∈ keys.filter fun key => reserved key = false,
      ((arrays.foldl (insertBuffer reserved) buffer).find key).isSome = true) := by
  have hiff := hasks.find_isSome_iff hkeys buffer harrays
  refine ⟨hiff, fun hsmall => hiff.mpr fun index => ?_⟩
  calc ((keys.filter fun key => reserved key = false).filter fun key => hash key = index).length
      ≤ (keys.filter fun key => reserved key = false).length := List.length_filter_le _ _
    _ ≤ keys.length := List.length_filter_le _ _
    _ ≤ 128 := hlength.trans hsmall

def firstBucket (maxBatchSize : Nat) (_ : UInt64) : Fin (bufferBuckets maxBatchSize) :=
  ⟨0, Nat.two_pow_pos _⟩

def quietEnv : ReadEnv (fun _ : UInt64 => false) UInt32 1 := .dropping _ [] none

theorem works_quietEnv : quietEnv.Works := ⟨fun _ => rfl, rfl⟩

theorem holdingOne_asksBuffer : (holdingOne false).AsksBuffer quietEnv [1, 2] := by
  refine asksBuffer_of_missed works_quietEnv rfl rfl fun hall => ?_
  exact absurd (hall 2 (by simp)) (by decide)

theorem multiget_buffer_holds_two :
    (holdingOne false).AsksBuffer quietEnv [1, 2] ∧
      ((((holdingOne false).bufferArrays quietEnv [1, 2]).foldl (insertBuffer fun _ => false)
        (Buckets.Table.empty (firstBucket 2) 128 _ (by decide))).find 2).isSome = true := by
  have hholds := multiget_buffer_holds_iff 2 (firstBucket 2) (.empty _ _ _ (by decide)) quietEnv
    (holdingOne false) [1, 2] (by decide) (Nat.le_refl 2) holdingOne_asksBuffer _
    (List.forall₂_same.mpr fun _ _ => .refl _)
  exact ⟨holdingOne_asksBuffer, hholds.2 (by decide) 2 (by decide)⟩

def crowd : List UInt64 := (List.range 129).map UInt64.ofNat

theorem crowd_nodup : crowd.Nodup := by
  refine List.Nodup.map_on (fun first hfirst second hsecond heq => ?_) List.nodup_range
  have hnat := congrArg UInt64.toNat heq
  rw [UInt64.toNat_ofNat', UInt64.toNat_ofNat'] at hnat
  have hfirst := List.mem_range.mp hfirst
  have hsecond := List.mem_range.mp hsecond
  omega

theorem crowd_asksBuffer : (opened {} : DB UInt64 UInt32 1).AsksBuffer quietEnv crowd := by
  refine asksBuffer_of_missed works_quietEnv rfl rfl fun hall => ?_
  have hzero : UInt64.ofNat 0 ∈ crowd := List.mem_map_of_mem (List.mem_range.mpr (by decide))
  cases hall _ hzero

-- The buffer of 129 entries has two buckets. When the 129 keys go to one of them, a key of the
-- batch is pushed out.
theorem multiget_buffer_overflows :
    crowd.Nodup ∧ crowd.length = 129 ∧ bufferBuckets 129 = 2 ∧
      (opened {} : DB UInt64 UInt32 1).AsksBuffer quietEnv crowd ∧
      ∃ key ∈ crowd, (((opened {} : DB UInt64 UInt32 1).bufferArrays quietEnv crowd).foldl
        (insertBuffer fun _ => false)
          (Buckets.Table.empty (firstBucket 129) 128 _ (by decide))).find key = none := by
  have hlength : crowd.length = 129 := by rw [crowd, List.length_map, List.length_range]
  refine ⟨crowd_nodup, hlength, by decide, crowd_asksBuffer, ?_⟩
  by_contra hnone
  push Not at hnone
  have hiff := crowd_asksBuffer.find_isSome_iff crowd_nodup
    (Buckets.Table.empty (firstBucket 129) 128 (Vector UInt32 1) (by decide))
    (List.forall₂_same.mpr fun _ _ => .refl _)
  have hfits := hiff.mp fun key hkey => Option.isSome_iff_ne_none.mpr
    (hnone key (List.mem_filter.mp hkey).1)
  have hfirst := hfits (firstBucket 129 0)
  simp [firstBucket, hlength] at hfirst

end DB

end MlkvPlus
