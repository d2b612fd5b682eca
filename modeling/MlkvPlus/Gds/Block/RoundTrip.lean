import MlkvPlus.Gds.Block.Seek

namespace MlkvPlus.Gds

namespace GDSDataBlockIter

variable {data : Memory}

-- All entries from the current one on, and the iterator behind the last of them.
def drain (data : Memory) : Nat → GDSDataBlockIter → Option (List BlockEntry × GDSDataBlockIter)
  | 0, iter => if iter.validFlag = true then none else some ([], iter)
  | fuel + 1, iter =>
    if iter.validFlag = true then
      match drain data fuel (iter.nextKernel data) with
      | none => none
      | some (rest, last) => some (⟨iter.key, iter.dValue data⟩ :: rest, last)
    else some ([], iter)

theorem drain_invalid (fuel : Nat) (h : iter.validFlag = false) :
    drain data fuel iter = some ([], iter) := by
  cases fuel with
  | zero => rw [drain, if_neg (by rw [h]; decide)]
  | succ fuel => rw [drain, if_neg (by rw [h]; decide)]

theorem At.drain {item : BlockItem} {rest : List BlockItem} {iter : GDSDataBlockIter}
    (h : iter.At data item rest) {fuel : Nat} (hfuel : rest.length < fuel) :
    ∃ last, GDSDataBlockIter.drain data fuel iter = some ((item :: rest).map Prod.snd, last) ∧
      last.validFlag = false ∧ last.errorCode = 0 := by
  induction rest generalizing item iter fuel with
  | nil =>
    obtain ⟨fuel, rfl⟩ := Nat.exists_eq_add_one_of_ne_zero (Nat.ne_zero_of_lt hfuel)
    obtain ⟨hinvalid, herror⟩ := h.next_end
    refine ⟨_, ?_, hinvalid, herror⟩
    rw [GDSDataBlockIter.drain, if_pos h.valid, drain_invalid fuel hinvalid]
    simp only [h.shows.key, h.shows.value, List.map_cons, List.map_nil]
  | cons next rest ih =>
    obtain ⟨fuel, rfl⟩ := Nat.exists_eq_add_one_of_ne_zero (Nat.ne_zero_of_lt hfuel)
    obtain ⟨last, hdrain, hinvalid, herror⟩ := ih h.next (Nat.lt_of_succ_lt_succ hfuel)
    refine ⟨last, ?_, hinvalid, herror⟩
    rw [GDSDataBlockIter.drain, if_pos h.valid, hdrain]
    simp only [h.shows.key, h.shows.value, List.map_cons]

end GDSDataBlockIter

namespace DataBlock

variable {block : DataBlock} {data : Memory}

theorem Loaded.seekToFirst (h : Loaded block data) (iter : GDSDataBlockIter)
    (hrestarts : iter.restarts = block.restartOffset) :
    ∃ item rest, block.items = item :: rest ∧ (iter.seekToFirstKernel data).At data item rest := by
  obtain ⟨interval, intervals, hintervals⟩ := List.exists_cons_of_ne_nil block.nonempty
  have hfirst : block.intervals[0]? = some interval := by rw [hintervals]; rfl
  have hitems := drop_eq hfirst
  refine ⟨_, _, hitems, ?_⟩
  have hahead := h.ahead 0 (show (iter.moveToRestart data 0).restarts = _ from hrestarts)
  rw [hitems] at hahead
  have hcurrent : (iter.moveToRestart data 0).current = block.restartPoint 0 := by
    rw [GDSDataBlockIter.moveToRestart, hrestarts,
      h.toStored.getRestartPoint (List.length_pos_iff.mpr block.nonempty)]
  obtain ⟨entry, hdecode, hshared, -, hat⟩ := hahead.at_load hcurrent
    (show _ ≤ GDSDataBlockIter.kSeekBound by decide)
  rw [GDSDataBlockIter.seekToFirstKernel]
  simp only [hdecode, hshared, ne_eq, not_true_eq_false, if_false]
  exact hat

theorem Loaded.drain_seek (h : Loaded block data) (target : Bytes) (iter : GDSDataBlockIter)
    (hcount : iter.numRestarts = block.intervals.length)
    (hrestarts : iter.restarts = block.restartOffset)
    (hfuel : block.items.length + block.intervals.length < fuel) :
    ∃ result, iter.seekKernel data target fuel = some result ∧ result.errorCode = 0 ∧
      (result.validFlag = true → ∃ index last, index < block.entries.length ∧
        result.drain data fuel = some (block.entries.drop index, last) ∧
        last.validFlag = false ∧ last.errorCode = 0) := by
  obtain ⟨start, result, hresult, -, hlanded, -⟩ := h.seek target iter hcount hrestarts hfuel
  refine ⟨result, hresult, ?_⟩
  rw [GDSDataBlockIter.Landed] at hlanded
  split at hlanded
  case h_1 => exact ⟨hlanded.2, fun hvalid => absurd hvalid (by rw [hlanded.1]; decide)⟩
  case h_2 item rest hdrop =>
    refine ⟨hlanded.noError, fun _ => ?_⟩
    have hsuffix : item :: rest <:+ block.items := by
      rw [← hdrop, items_split block start]
      exact (List.dropWhile_suffix _).trans (List.suffix_append _ _)
    obtain ⟨front, hfront⟩ := hsuffix
    have hlength := congrArg List.length hfront
    rw [List.length_append, List.length_cons] at hlength
    obtain ⟨last, hdrain, hinvalid, herror⟩ := hlanded.drain (show _ < fuel by omega)
    refine ⟨front.length, last, ?_, ?_, hinvalid, herror⟩
    · rw [entries, List.length_map]
      omega
    · rw [hdrain, entries, ← hfront, List.map_append, List.drop_left' (List.length_map _)]

-- Iteration gives back the entries that a block was built from, and from the place where a seek
-- stops those that are left.
theorem iterate_build (interval : Nat) (entries : List BlockEntry) (hentries : entries ≠ [])
    (hkeys : ∀ entry ∈ entries, 8 ≤ entry.key.length ∧ entry.key.length ≤ 512)
    (hsize : (build interval entries hentries).bytes.length < 2 ^ 31) (data : Memory)
    (hdata : data.Stores 0 (build interval entries hentries).bytes) (assertions : Bool)
    (buffer : GDSDataBlockIterDevicePinnedBuffer) :
    ∃ metadata enough,
      initializeBlockMetadata assertions data (build interval entries hentries).bytes.length =
        .returned metadata ∧
      ∀ fuel, enough ≤ fuel →
        (∃ last, (GDSDataBlockIter.seekToFirstKernel data
            ⟨initializeIteratorState metadata, buffer⟩).drain data fuel = some (entries, last) ∧
          last.validFlag = false ∧ last.errorCode = 0) ∧
        ∀ target, ∃ result, GDSDataBlockIter.seekKernel data target fuel
            ⟨initializeIteratorState metadata, buffer⟩ = some result ∧
          result.errorCode = 0 ∧
          (result.validFlag = true → ∃ index last, index < entries.length ∧
            result.drain data fuel = some (entries.drop index, last) ∧
            last.validFlag = false ∧ last.errorCode = 0) := by
  obtain ⟨block, hblock⟩ : ∃ block, block = build interval entries hentries := ⟨_, rfl⟩
  have hbuilt : block.entries = entries := by rw [hblock, entries_build]
  rw [← hblock] at hsize hdata ⊢
  have hloaded : Loaded block data :=
    ⟨hdata, hsize, fun entry hentry => (hkeys entry (hbuilt ▸ hentry)).2⟩
  refine ⟨block.metadata, block.items.length + block.intervals.length + 1,
    hloaded.toStored.initialize assertions, fun fuel hfuel => ⟨?_, fun target => ?_⟩⟩
  · obtain ⟨item, rest, hitems, hat⟩ := hloaded.seekToFirst
      ⟨initializeIteratorState block.metadata, buffer⟩ rfl
    have hlength := congrArg List.length hitems
    rw [List.length_cons] at hlength
    obtain ⟨last, hdrain, hlast⟩ := hat.drain (show _ < fuel by omega)
    rw [← hitems] at hdrain
    exact ⟨last, hbuilt ▸ hdrain, hlast⟩
  · rw [← hbuilt]
    exact hloaded.drain_seek target ⟨initializeIteratorState block.metadata, buffer⟩ rfl rfl
      (by omega)

-- A value of more than 127 bytes needs two bytes for its length.
def longAndShort : List BlockEntry :=
  [⟨[7] ++ Bytes.fixed 8 0x301, List.replicate 130 5⟩, ⟨[7, 1] ++ Bytes.fixed 8 0x201, [20]⟩]

theorem iterate_longAndShort :
    ∃ metadata enough,
      initializeBlockMetadata true
        (Memory.ofBytes (build 16 longAndShort (by decide)).bytes)
        (build 16 longAndShort (by decide)).bytes.length = .returned metadata ∧
      ∀ fuel, enough ≤ fuel → ∃ last,
        (GDSDataBlockIter.seekToFirstKernel
          (Memory.ofBytes (build 16 longAndShort (by decide)).bytes)
          ⟨initializeIteratorState metadata, freshBuffer⟩).drain
            (Memory.ofBytes (build 16 longAndShort (by decide)).bytes) fuel =
          some (longAndShort, last) ∧ last.errorCode = 0 := by
  obtain ⟨metadata, enough, hinitialize, hiterate⟩ := iterate_build 16 longAndShort (by decide)
    (by decide) (by decide +kernel) (Memory.ofBytes _) (Memory.stores_ofBytes _) true freshBuffer
  refine ⟨metadata, enough, hinitialize, fun fuel hfuel => ?_⟩
  obtain ⟨⟨last, hdrain, -, herror⟩, -⟩ := hiterate fuel hfuel
  exact ⟨last, hdrain, herror⟩

end DataBlock

end MlkvPlus.Gds
