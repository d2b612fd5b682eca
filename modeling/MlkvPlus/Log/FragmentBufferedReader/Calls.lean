import Mathlib.Data.List.ReduceOption
import MlkvPlus.Log.FragmentBufferedReader.Growth

namespace MlkvPlus.Log.FragmentBufferedReader

variable {log : Bytes} {r : FragmentBufferedReader}

section Calls

variable (env : ReaderEnv) (mode : WALRecoveryMode) (filler : Bytes)
  (hfiller : kHeaderSize ≤ filler.length)

-- The reader has returned `delivered` records and `remaining` are to come. The log is made of
-- records with these `sizes`.
inductive Tracks (log : Bytes) (sizes : List Nat) (delivered : Nat) :
    List Bytes → FragmentBufferedReader → Prop where
  | finished {offset : Nat} {r : FragmentBufferedReader} (hat : At log offset [] r) :
      Tracks log sizes delivered [] r
  | waiting {payload : Bytes} {next : Nat} {later : List Bytes} {r : FragmentBufferedReader}
      (hbefore : Before filler hfiller log payload next later r)
      (hsizes : sizes.drop (delivered + 1) = format.sizes next (later.map List.length)) :
      Tracks log sizes delivered (payload :: later) r

theorem tracks_of_between (h : Between filler hfiller log next later r)
    (hsizes : sizes.drop delivered = format.sizes next (later.map List.length)) :
    Tracks filler hfiller log sizes delivered later r := by
  cases later with
  | nil => exact .finished h.position
  | cons data later =>
    refine .waiting h.before ?_
    rw [← List.drop_drop, hsizes]
    rfl

theorem readRecord_tracks (seen : Nat → Nat) (hbound : kBlockSize < bound)
    (hlog : sizes.sum = log.length) (hfuel : ∀ payload ∈ remaining, 2 * payload.length + 1 < fuel)
    (hpos : 0 < fuel) (h : Tracks filler hfiller log sizes delivered remaining r) :
    ∃ result r', r.readRecord env mode (growing log seen) bound fuel = some (result, r') ∧
      r'.reports = r.reports ∧ r.reads ≤ r'.reads ∧
      ((∃ payload later, remaining = payload :: later ∧ result = some payload ∧
          Tracks filler hfiller log sizes (delivered + 1) later r') ∨
        result = none ∧ Tracks filler hfiller log sizes delivered remaining r' ∧
          (remaining = [] ∨ ∃ read, r.reads ≤ read ∧ Framing.intact (seen read) sizes ≤ delivered)) := by
  cases h with
  | @finished offset _ hat =>
    obtain ⟨fuel, rfl⟩ := Nat.exists_eq_succ_of_ne_zero (Nat.ne_of_gt hpos)
    obtain ⟨offset', r', hfill, hat', hkept⟩ := fill_nil seen hat (Nat.zero_lt_of_lt hbound)
    refine ⟨none, r', ?_, hkept.reports, hkept.reads, .inr ⟨rfl, .finished hat', .inl rfl⟩⟩
    simp only [readRecord, readRecordLoop, tryReadFragment, hfill, Option.bind_eq_bind,
      Option.bind_some, if_true]
  | @waiting payload next later _ hbefore hsizes =>
    obtain ⟨offset, first, data, hpayload, hnext, hat, hin, hfragments⟩ := hbefore
    have hlength : data.length ≤ payload.length := by
      rw [hpayload, List.length_append]
      omega
    have henough : format.fuel offset data.length < fuel := by
      have hpayload := hfuel payload List.mem_cons_self
      rw [Framing.Format.fuel]
      split <;> omega
    obtain ⟨result, r', hread, hreports, hreads, hresult⟩ := readRecordLoop_before env mode filler
      hfiller seen hbound (r.endOfBufferOffset - r.buffer.length) fuel 0 offset first data r hat
      hnext hin hfragments henough
    rw [← hpayload] at hresult
    refine ⟨result, r', hread, hreports, hreads, ?_⟩
    rcases hresult with ⟨rfl, hbetween⟩ | ⟨rfl, hbefore, read, hle, hlt, hseen⟩
    · exact .inl ⟨payload, later, rfl, rfl, tracks_of_between filler hfiller hbetween hsizes⟩
    · refine .inr ⟨rfl, .waiting hbefore hsizes, .inr ⟨read, hle, ?_⟩⟩
      apply Framing.intact_le_of_lt
      have hsum : (sizes.take (delivered + 1)).sum + (sizes.drop (delivered + 1)).sum = sizes.sum := by
        rw [← List.sum_append, List.take_append_drop]
      rw [hsizes, hlog] at hsum
      have hrest : ((noChecksumLayout filler hfiller).log next later).length =
          (format.sizes next (later.map List.length)).sum :=
        (noChecksumLayout filler hfiller).length_log next later
      omega

variable {env mode} in
theorem readRecords_succ (hread : r.readRecord env mode file bound fuel = some (result, r₁))
    (hrest : readRecords env mode file bound fuel calls r₁ = some (results, r')) :
    readRecords env mode file bound fuel (calls + 1) r = some (result :: results, r') := by
  simp only [readRecords, hread, hrest, Option.bind_eq_bind, Option.bind_some]

theorem readRecords_tracks (seen : Nat → Nat) (hbound : kBlockSize < bound)
    (hlog : sizes.sum = log.length) (hpos : 0 < fuel) (calls : Nat)
    (hfuel : ∀ payload ∈ remaining, 2 * payload.length + 1 < fuel)
    (h : Tracks filler hfiller log sizes delivered remaining r) :
    ∃ results r' later, readRecords env mode (growing log seen) bound fuel calls r =
        some (results, r') ∧ r'.reports = r.reports ∧ r.reads ≤ r'.reads ∧
      remaining = results.reduceOption ++ later ∧
      Tracks filler hfiller log sizes (delivered + results.reduceOption.length) later r' := by
  induction calls generalizing r delivered remaining with
  | zero => exact ⟨[], r, remaining, rfl, rfl, Nat.le_refl _, rfl, h⟩
  | succ calls ih =>
    obtain ⟨result, r₁, hread, hreports, hreads, hresult⟩ :=
      readRecord_tracks env mode filler hfiller seen hbound hlog hfuel hpos h
    rcases hresult with ⟨payload, later, rfl, rfl, htracks⟩ | ⟨rfl, htracks, _⟩
    · obtain ⟨results, r', rest, hrest, hreports', hreads', hlater, htracks'⟩ := ih
        (fun other hother => hfuel other (List.mem_cons_of_mem _ hother)) htracks
      refine ⟨some payload :: results, r', rest, ?_, hreports'.trans hreports,
        hreads.trans hreads', ?_, ?_⟩
      · exact readRecords_succ hread hrest
      · rw [List.reduceOption_cons_of_some, List.cons_append, hlater]
      · rw [List.reduceOption_cons_of_some, List.length_cons]
        rwa [Nat.add_right_comm, Nat.add_assoc] at htracks'
    · obtain ⟨results, r', rest, hrest, hreports', hreads', hlater, htracks'⟩ := ih hfuel htracks
      refine ⟨none :: results, r', rest, ?_, hreports'.trans hreports, hreads.trans hreads', ?_, ?_⟩
      · exact readRecords_succ hread hrest
      · rwa [List.reduceOption_cons_of_none]
      · rwa [List.reduceOption_cons_of_none]

-- When every further read finds `count` whole records, as many calls as are missing return them.
theorem readRecords_complete (seen : Nat → Nat) (hbound : kBlockSize < bound)
    (hlog : sizes.sum = log.length) (hpos : 0 < fuel)
    (hfuel : ∀ payload ∈ remaining, 2 * payload.length + 1 < fuel)
    (h : Tracks filler hfiller log sizes delivered remaining r)
    (hseen : ∀ read, r.reads ≤ read → count ≤ Framing.intact (seen read) sizes)
    (hcount : count ≤ delivered + remaining.length) :
    ∃ r', readRecords env mode (growing log seen) bound fuel (count - delivered) r =
        some ((remaining.take (count - delivered)).map some, r') ∧ r'.reports = r.reports := by
  generalize hmissing : count - delivered = missing
  induction missing generalizing r delivered remaining with
  | zero => exact ⟨r, rfl, rfl⟩
  | succ missing ih =>
    obtain ⟨result, r₁, hread, hreports, hreads, hresult⟩ :=
      readRecord_tracks env mode filler hfiller seen hbound hlog hfuel hpos h
    rcases hresult with ⟨payload, later, rfl, rfl, htracks⟩ | ⟨rfl, _, hstuck⟩
    · rw [List.length_cons] at hcount
      obtain ⟨r', hrest, hreports'⟩ := ih
        (fun other hother => hfuel other (List.mem_cons_of_mem _ hother)) htracks
        (fun read hle => hseen read (hreads.trans hle)) (by omega) (by omega)
      refine ⟨r', ?_, hreports'.trans hreports⟩
      exact readRecords_succ hread hrest
    · exfalso
      rcases hstuck with rfl | ⟨read, hle, hintact⟩
      · rw [List.length_nil] at hcount
        omega
      · have hmore := hseen read hle
        omega

-- A log that is read while it grows, from its first byte: the calls return its records in order
-- and without a report, each once, and they return all that the file has whole.
theorem readRecords_growing (payloads : List Bytes) (seen : Nat → Nat) (hbound : kBlockSize < bound)
    (hpos : 0 < fuel) (hfuel : ∀ payload ∈ payloads, 2 * payload.length + 1 < fuel) (calls : Nat) :
    let file := growing ((noChecksumLayout filler hfiller).log format.blockSize payloads) seen
    let sizes := format.sizes format.blockSize (payloads.map List.length)
    ∃ results r, readRecords env mode file bound fuel calls {} = some (results, r) ∧
      r.reports = [] ∧ results.reduceOption <+: payloads ∧
      ∀ count ≤ payloads.length, (∀ read, r.reads ≤ read → count ≤ Framing.intact (seen read) sizes) →
        ∃ r', readRecords env mode file bound fuel (count - results.reduceOption.length) r =
          some (((payloads.take count).drop results.reduceOption.length).map some, r') ∧
          r'.reports = [] := by
  have hlog := (noChecksumLayout filler hfiller).length_log format.blockSize payloads
  have hstart : Tracks filler hfiller
      ((noChecksumLayout filler hfiller).log format.blockSize payloads)
      (format.sizes format.blockSize (payloads.map List.length)) 0 payloads {} :=
    tracks_of_between filler hfiller ⟨at_open _, rfl, rfl⟩ rfl
  obtain ⟨results, r, later, hcalls, hreports, _, hsplit, htracks⟩ := readRecords_tracks env mode
    filler hfiller seen hbound hlog.symm hpos calls hfuel hstart
  refine ⟨results, r, hcalls, hreports, ⟨later, hsplit.symm⟩, ?_⟩
  intro count hcount hseen
  rw [Nat.zero_add] at htracks
  have hlength := congrArg List.length hsplit
  rw [List.length_append] at hlength
  obtain ⟨r', hrest, hreports'⟩ := readRecords_complete env mode filler hfiller seen hbound hlog.symm
    hpos (fun payload hmem => hfuel payload (by rw [hsplit]; exact List.mem_append_right _ hmem))
    htracks hseen (by omega)
  refine ⟨r', ?_, hreports'.trans hreports⟩
  rw [hrest, List.drop_take, hsplit, List.drop_left]

end Calls

end MlkvPlus.Log.FragmentBufferedReader
