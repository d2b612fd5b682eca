import MlkvPlus.Gds.Lookups
import MlkvPlus.Gds.Table.Lookup

namespace MlkvPlus.Gds

open scoped KeyOrder
open Sst (Entry GDSGetContext)
open GPUBlockCache (BLOCK_SIZE)

-- A block of a table in the file, with its trailer.
structure TableBlock.StoredIn (contents : FileContents) (trailerSize : Nat) (block : TableBlock) :
    Prop where
  fits : block.index.value.handle.offset + (block.index.value.handle.size + trailerSize) ≤
    contents.1.length
  bytes : (contents.1.drop block.index.value.handle.offset).take block.index.value.handle.size =
    block.block.bytes

namespace GDSRandomAccessFile

variable {file : GDSRandomAccessFile} {contents : FileContents} {options : GDSOptions}
  {offset n : Nat}

theorem ensureGPUBuffer_eq (file : GDSRandomAccessFile) (offset n : Nat)
    (realloc : Option Memory) :
    ∃ buffer, file.ensureGPUBuffer offset n realloc = { file with gpuBuffer := buffer } := by
  unfold ensureGPUBuffer
  split
  · exact ⟨file.gpuBuffer, rfl⟩
  · exact ⟨_, rfl⟩

theorem Ready.ensureGPUBuffer (h : Ready contents options file) (offset n : Nat)
    (realloc : Option Memory) :
    Ready contents options (file.ensureGPUBuffer offset n realloc) := by
  obtain ⟨buffer, hbuffer⟩ := file.ensureGPUBuffer_eq offset n realloc
  rw [hbuffer]
  exact ⟨h.isOpen, h.options_eq, h.size_eq, h.holds⟩

theorem Backed.ensureGPUBuffer {contents : Bytes} {slice : DeviceSlice} {place : Nat}
    (h : Backed contents file slice place) (hsafe : ¬file.Clobbers offset n slice)
    (realloc : Option Memory) :
    Backed contents (file.ensureGPUBuffer offset n realloc) slice place := by
  unfold GDSRandomAccessFile.ensureGPUBuffer
  split
  case h_1 => exact h
  case h_2 hnone =>
    cases h with
    | buffer => exact absurd ⟨hnone, trivial⟩ hsafe
    | block hcache hresident hskip hfits => exact .block hcache hresident hskip hfits

theorem read_memoryAt (file : GDSRandomAccessFile) (slice : DeviceSlice) (skip size : Nat) :
    (file.memoryAt slice).read skip size = file.bytesOf (slice.part skip size) := by
  simp only [memoryAt, Memory.read, bytesOf, DeviceSlice.part, Nat.add_assoc]

theorem part_slice (file : GDSRandomAccessFile) (offset n whole size : Nat) :
    (file.slice offset n whole).part 0 size = file.slice offset n size := by
  simp only [slice]
  split
  · rfl
  · split <;> rfl

theorem size_slice (file : GDSRandomAccessFile) (offset n size : Nat) :
    (file.slice offset n size).size = size := by
  rw [slice]
  split
  · rfl
  · split <;> rfl

end GDSRandomAccessFile

namespace Lookups

open GDSRandomAccessFile

variable {ι : Type} {lookups : Lookups ι} {table : Table} {file next : GDSRandomAccessFile}

theorem gdsReadBlock_spec (hready : Ready lookups.contents lookups.options file)
    (haligned : lookups.options.gdsAlignment ∣ BLOCK_SIZE) {block : TableBlock}
    (hstored : block.StoredIn lookups.contents lookups.trailerSize)
    (hcomplete : file.Complete block.index.value.handle.offset
      (lookups.readSize block.index.value.handle)) (realloc : Option Memory) :
    ∃ slice next, lookups.gdsReadBlock file block.index.value.handle realloc =
        (.returned (.ok slice), next) ∧
      Ready lookups.contents lookups.options next ∧
      slice.size = block.block.bytes.length ∧
      Backed lookups.contents.1 next slice block.index.value.handle.offset ∧
      ∀ other place, Backed lookups.contents.1 file other place →
        ¬file.Clobbers block.index.value.handle.offset
          (lookups.readSize block.index.value.handle) other →
        Backed lookups.contents.1 next other place := by
  obtain ⟨handle, hhandle⟩ : ∃ handle, handle = block.index.value.handle := ⟨_, rfl⟩
  obtain ⟨n, hn⟩ : ∃ n, n = lookups.readSize handle := ⟨_, rfl⟩
  rw [← hhandle, ← hn] at hcomplete
  rw [← hhandle, ← hn]
  have hsized := block.sized
  have hfits := hstored.fits
  rw [← hhandle] at hsized hfits
  have hlength := block.block.length_bytes
  have hpos : 0 < n := by
    rw [hn, readSize]
    omega
  have hinside : handle.offset + n ≤ lookups.contents.1.length := by
    rw [hn]
    exact hfits
  obtain ⟨ensured, hensured⟩ : ∃ ensured, ensured = file.ensureGPUBuffer handle.offset n realloc :=
    ⟨_, rfl⟩
  have hready' : Ready lookups.contents lookups.options ensured :=
    hensured ▸ hready.ensureGPUBuffer handle.offset n realloc
  obtain ⟨buffer, hbuffer⟩ := file.ensureGPUBuffer_eq handle.offset n realloc
  have hcomplete' : ensured.Complete handle.offset n := by
    rw [hensured, hbuffer]
    exact hcomplete
  obtain ⟨next, hread, hnext⟩ := hready'.read haligned hpos hinside hcomplete'
  have hbacked := backed_slice hready' hinside hpos hread
  have hbytes : ((lookups.contents.1.drop handle.offset).take n).length = n := by
    rw [List.length_take, List.length_drop]
    omega
  refine ⟨ensured.slice handle.offset n handle.size, next, ?_, hnext, ?_, ?_, ?_⟩
  · simp only [gdsReadBlock, ← hn, ← hensured, hread, hbytes, ne_eq, not_true_eq_false, if_false]
  · rw [← hsized, size_slice]
  · have hsize : handle.size ≤ n := by
      rw [hn]
      exact Nat.le_add_right ..
    have hpart := hbacked.part (show 0 < _ by rw [size_slice]; exact hpos)
      (show 0 + handle.size ≤ _ by rw [size_slice]; omega)
    rw [part_slice] at hpart
    exact hpart
  · intro other place hother hsafe
    have hother' : Backed lookups.contents.1 ensured other place :=
      hensured ▸ hother.ensureGPUBuffer hsafe realloc
    have hsafe' : ¬ensured.Clobbers handle.offset n other := by
      rw [hensured, hbuffer]
      exact hsafe
    have hcontents := lookups.contents.2
    have hkept := hother'.read hready' (by omega) hsafe'
    rw [hread] at hkept
    exact hkept

-- What a lookup should yield by the newest visible version of its key.
def yields : Option (Entry Bytes) → OperationResult × Option Bytes
  | none => (.KEY_NOT_FOUND, none)
  | some entry =>
    if entry.type = .kTypeValue then (.SUCCESS, some entry.value) else (.KEY_NOT_FOUND, none)

-- The lookups go to a table of puts and deletions in the file, with enough steps for its blocks.
structure Hosts (lookups : Lookups ι) (table : Table) : Prop where
  serves : lookups.reader.Serves table
  plain : ∀ entry ∈ table.entries, entry.type = .kTypeValue ∨ entry.type.isDeletion = true
  stored : ∀ block ∈ table.blocks, block.StoredIn lookups.contents lookups.trailerSize
  snapshots : ∀ lookup, lookups.snapshot lookup < 2 ^ 56
  aligned : lookups.options.gdsAlignment ∣ BLOCK_SIZE
  fuelled : ∀ block ∈ table.blocks,
    block.block.items.length + block.block.intervals.length < lookups.fuel

-- The blocks that a lookup has left have all it needs.
structure Remaining (lookups : Lookups ι) (table : Table) (lookup : ι) (blocks : List TableBlock) :
    Prop where
  suffix : blocks <:+ table.blocks
  seek : table.entries.dropWhile (before (lookups.user lookup) (lookups.snapshot lookup)) =
    (entriesOf blocks).dropWhile (before (lookups.user lookup) (lookups.snapshot lookup))

inductive Sound (lookups : Lookups ι) (table : Table) (file : GDSRandomAccessFile) (lookup : ι) :
    Phase → Prop where
  | reading {blocks : List TableBlock} (buffer : GDSDataBlockIterDevicePinnedBuffer)
      (hblocks : lookups.Remaining table lookup blocks) :
      Sound lookups table file lookup
        (.reading (blocks.map TableBlock.index) buffer (lookups.context lookup))
  | seeking {slice : DeviceSlice} {block : TableBlock} {blocks : List TableBlock}
      (buffer : GDSDataBlockIterDevicePinnedBuffer)
      (hblocks : lookups.Remaining table lookup (block :: blocks))
      (hsize : slice.size = block.block.bytes.length)
      (hbacked : Backed lookups.contents.1 file slice block.index.value.handle.offset) :
      Sound lookups table file lookup (.seeking slice block.index (blocks.map TableBlock.index)
        buffer (lookups.context lookup))
  | copying {value : DeviceSlice} {entry : Entry Bytes} {place : Nat}
      (hnewest : table.newest (lookups.user lookup) (lookups.snapshot lookup) = some entry)
      (htype : entry.type = .kTypeValue)
      (hvalue : (lookups.contents.1.drop place).take value.size = entry.value)
      (hbacked : Backed lookups.contents.1 file value place) :
      Sound lookups table file lookup (.copying value)
  | finished : Sound lookups table file lookup
      (.finished (yields (table.newest (lookups.user lookup) (lookups.snapshot lookup))))

theorem Sound.keep (h : lookups.Sound table file lookup phase)
    (hkeep : ∀ slice place, phase.slice? = some slice →
      Backed lookups.contents.1 file slice place → Backed lookups.contents.1 next slice place) :
    lookups.Sound table next lookup phase := by
  cases h with
  | reading buffer hblocks => exact .reading buffer hblocks
  | seeking buffer hblocks hsize hbacked =>
    exact .seeking buffer hblocks hsize (hkeep _ _ rfl hbacked)
  | copying hnewest htype hvalue hbacked =>
    exact .copying hnewest htype hvalue (hkeep _ _ rfl hbacked)
  | finished => exact .finished

theorem sound_finished
    (h : yields (table.newest (lookups.user lookup) (lookups.snapshot lookup)) = result) :
    lookups.Sound table file lookup (.finished result) :=
  h ▸ .finished

theorem Remaining.mem (h : lookups.Remaining table lookup (block :: blocks)) :
    block ∈ table.blocks :=
  h.suffix.subset List.mem_cons_self

theorem Remaining.sorted (h : lookups.Remaining table lookup blocks) : Sorted (entriesOf blocks) :=
  table.sorted_suffix h.suffix

theorem Remaining.tail (h : lookups.Remaining table lookup (block :: blocks))
    (hdrop : block.entries.dropWhile
      (before (lookups.user lookup) (lookups.snapshot lookup)) = []) :
    lookups.Remaining table lookup blocks := by
  refine ⟨(List.suffix_cons _ _).trans h.suffix, ?_⟩
  rw [h.seek, dropWhile_entriesOf_cons h.sorted, hdrop, List.nil_append]

theorem Remaining.newest_of_nil (h : lookups.Remaining table lookup []) :
    table.newest (lookups.user lookup) (lookups.snapshot lookup) = none :=
  Table.newest_of_nil h.seek

theorem Remaining.newest_of_fallsBetween (h : lookups.Remaining table lookup (block :: blocks))
    (hbetween : GDSBlockBasedTableReader.fallsBetween (lookups.key lookup) lookups.skipFilters
      block.index.value = true) :
    table.newest (lookups.user lookup) (lookups.snapshot lookup) = none := by
  cases hdrop : table.entries.dropWhile
      (before (lookups.user lookup) (lookups.snapshot lookup)) with
  | nil => exact Table.newest_of_nil hdrop
  | cons entry rest =>
    have hmem : entry ∈ entriesOf (block :: blocks) := by
      rw [h.seek] at hdrop
      exact (List.dropWhile_suffix _).subset (hdrop ▸ List.mem_cons_self)
    have hlt := GDSBlockBasedTableReader.user_lt_of_fallsBetween h.sorted hbetween hmem
    rw [Table.newest_of_cons hdrop, if_neg hlt.ne']

theorem Remaining.newest_of_cons (h : lookups.Remaining table lookup (block :: blocks))
    (hdrop : block.entries.dropWhile
      (before (lookups.user lookup) (lookups.snapshot lookup)) = entry :: rest) :
    table.newest (lookups.user lookup) (lookups.snapshot lookup) =
      if entry.userKey = lookups.user lookup then some entry else none := by
  have hseek := h.seek
  rw [dropWhile_entriesOf_cons h.sorted, hdrop, List.cons_append] at hseek
  exact Table.newest_of_cons hseek

theorem sound_start (h : lookups.Hosts table) (file : GDSRandomAccessFile) (lookup : ι) :
    lookups.Sound table file lookup (lookups.start lookup) := by
  rw [start]
  split
  case isTrue =>
    have hindex : lookups.reader.iterSeek (lookups.key lookup) =
        (table.blocks.dropWhile fun block =>
          Precedes block.index.separator (lookups.key lookup)).map TableBlock.index := by
      rw [h.serves.seeks, List.dropWhile_map]
      rfl
    rw [hindex]
    refine .reading _ ⟨List.dropWhile_suffix _, ?_⟩
    exact (dropWhile_skipped table.blocks _ (h.snapshots lookup)).symm
  case isFalse hfiltered =>
    have hfilter : lookups.reader.filterMayMatch (lookups.key lookup) = false := by
      simpa using (not_or.mp hfiltered).2
    have hnone : table.newest (lookups.user lookup) (lookups.snapshot lookup) = none := by
      refine List.head?_eq_none_iff.mpr (List.filter_eq_nil_iff.mpr fun entry hentry => ?_)
      simp [h.serves.filters _ _ hfilter entry hentry]
    exact sound_finished (by rw [hnone]; rfl)

theorem stores_memoryAt (hready : Ready lookups.contents lookups.options file)
    {block : TableBlock} (hstored : block.StoredIn lookups.contents lookups.trailerSize)
    {slice : DeviceSlice} (hsize : slice.size = block.block.bytes.length)
    (hbacked : Backed lookups.contents.1 file slice block.index.value.handle.offset) :
    (file.memoryAt slice).Stores 0 block.block.bytes := by
  have hbytes := hbacked.bytesOf hready
  rw [hsize, ← block.sized, hstored.bytes] at hbytes
  rw [Memory.Stores, read_memoryAt, ← hsize]
  exact hbytes

theorem Hosts.ending (h : lookups.Hosts table) (lookup : ι) (left : List IndexEntry)
    (phase : Phase) : lookups.ending lookup left phase = phase := by
  rw [Lookups.ending, GDSBlockBasedTableReader.indexStatus, h.serves.status]
  rfl

theorem sound_afterSearch (hhosts : lookups.Hosts table)
    (hready : Ready lookups.contents lookups.options file)
    {slice : DeviceSlice} {offset : Nat} (hbacked : Backed lookups.contents.1 file slice offset)
    (index : IndexEntry) (rest : List IndexEntry) {lookup : ι} {entry : Entry Bytes}
    (hnewest : table.newest (lookups.user lookup) (lookups.snapshot lookup) =
      if entry.userKey = lookups.user lookup then some entry else none)
    {iter : GDSDataBlockIter} (hvalue : iter.dValue (file.memoryAt slice) = entry.value)
    (hends : iter.valuePtr + toSize iter.valueLength < slice.size) :
    lookups.Sound table file lookup (lookups.afterSearch lookup slice index rest ⟨.ok, true,
        GDSBlockBasedTableReader.saved (lookups.context lookup) entry, iter⟩) ∧
      (lookups.afterSearch lookup slice index rest ⟨.ok, true,
        GDSBlockBasedTableReader.saved (lookups.context lookup) entry, iter⟩).left ≤ 1 := by
  have huser : (lookups.context lookup).userKey = lookups.user lookup := rfl
  by_cases hkey : entry.userKey = lookups.user lookup
  · rw [if_pos hkey] at hnewest
    by_cases htype : entry.type = .kTypeValue
    · have hpart := hbacked.part (show iter.valuePtr < slice.size by omega) hends.le
      rw [GDSDataBlockIter.dValue, read_memoryAt, hpart.bytesOf hready] at hvalue
      simp only [afterSearch, hhosts.ending, GDSBlockBasedTableReader.saved, huser, if_pos hkey,
        if_pos htype]
      exact ⟨.copying hnewest htype hvalue hpart, le_refl _⟩
    · simp only [afterSearch, hhosts.ending, GDSBlockBasedTableReader.saved, huser, if_pos hkey,
        if_neg htype, GDSGetContext.withState]
      refine ⟨sound_finished ?_, Nat.zero_le _⟩
      rw [hnewest, yields, if_neg htype]
  · rw [if_neg hkey] at hnewest
    simp only [afterSearch, hhosts.ending, GDSBlockBasedTableReader.saved, huser, if_neg hkey]
    refine ⟨sound_finished ?_, Nat.zero_le _⟩
    rw [hnewest, yields]

structure Invariant (lookups : Lookups ι) (table : Table) (s : System ι) : Prop where
  ready : Ready lookups.contents lookups.options s.file
  sound : ∀ lookup, lookups.Sound table s.file lookup (s.phase lookup)

-- A read that returns its range and takes the place of no slice that a lookup still uses.
def Undisturbing (lookups : Lookups ι) (s : System ι) (turn : Turn ι) : Prop :=
  ∀ entry rest buffer context, s.phase turn.lookup = .reading (entry :: rest) buffer context →
    s.file.Complete entry.value.handle.offset (lookups.readSize entry.value.handle) ∧
    ∀ other slice, (s.phase other).slice? = some slice →
      ¬s.file.Clobbers entry.value.handle.offset (lookups.readSize entry.value.handle) slice

variable [DecidableEq ι] {s : System ι}

theorem Invariant.move (h : lookups.Invariant table s)
    (hready : Ready lookups.contents lookups.options next)
    (hkeep : ∀ other slice place, (s.phase other).slice? = some slice →
      Backed lookups.contents.1 s.file slice place → Backed lookups.contents.1 next slice place)
    (hphase : lookups.Sound table next lookup phase) :
    lookups.Invariant table ⟨next, Function.update s.phase lookup phase⟩ := by
  refine ⟨hready, fun other => ?_⟩
  by_cases heq : other = lookup
  · subst heq
    dsimp only
    rw [Function.update_self]
    exact hphase
  · dsimp only
    rw [Function.update_of_ne heq]
    exact (h.sound other).keep (hkeep other)

theorem Invariant.setPhase (h : lookups.Invariant table s)
    (hphase : lookups.Sound table s.file lookup phase) :
    lookups.Invariant table { s with phase := Function.update s.phase lookup phase } :=
  h.move h.ready (fun _ _ _ _ hbacked => hbacked) hphase

-- A step that a lookup takes: it keeps the invariant and comes closer to the end.
def Advances (lookups : Lookups ι) (table : Table) (s : System ι) (turn : Turn ι) : Prop :=
  ∃ s', lookups.step s turn = some s' ∧ lookups.Invariant table s' ∧
    (s'.phase turn.lookup).left < (s.phase turn.lookup).left

theorem Invariant.advance (h : lookups.Invariant table s)
    (hstep : lookups.step s turn = some { s with
      phase := Function.update s.phase turn.lookup phase })
    (hphase : lookups.Sound table s.file turn.lookup phase)
    (hleft : phase.left < (s.phase turn.lookup).left) : lookups.Advances table s turn := by
  refine ⟨_, hstep, h.setPhase hphase, ?_⟩
  dsimp only
  rw [Function.update_self]
  exact hleft

theorem Invariant.read (h : lookups.Invariant table s) (hhosts : lookups.Hosts table)
    {turn : Turn ι} (hallowed : lookups.Undisturbing s turn) {block : TableBlock}
    {blocks : List TableBlock} {buffer : GDSDataBlockIterDevicePinnedBuffer}
    (hblocks : lookups.Remaining table turn.lookup (block :: blocks))
    (hphase : s.phase turn.lookup = .reading ((block :: blocks).map TableBlock.index) buffer
      (lookups.context turn.lookup)) : lookups.Advances table s turn := by
  by_cases hbetween : GDSBlockBasedTableReader.fallsBetween (lookups.key turn.lookup)
      lookups.skipFilters block.index.value = true
  · have hstep : lookups.step s turn = some { s with
        phase := Function.update s.phase turn.lookup (.finished (.KEY_NOT_FOUND, none)) } := by
      simp only [step, hphase, List.map_cons, hbetween, if_true, hhosts.ending]
    refine h.advance hstep (sound_finished ?_) (by rw [hphase]; exact Nat.succ_pos _)
    rw [hblocks.newest_of_fallsBetween hbetween, yields]
  · obtain ⟨hcomplete, hsafe⟩ := hallowed _ _ _ _ hphase
    obtain ⟨slice, next, hread, hready, hsize, hbacked, hkeep⟩ := gdsReadBlock_spec h.ready
      hhosts.aligned (hhosts.stored block hblocks.mem) hcomplete turn.realloc
    refine ⟨_, ?_, h.move hready (fun other old place hold hold' =>
      hkeep old place hold' (hsafe other old hold)) (.seeking buffer hblocks hsize hbacked), ?_⟩
    · simp only [step, hphase, List.map_cons, hbetween, Bool.false_eq_true, if_false, readStep,
        hread]
    · dsimp only
      rw [Function.update_self, hphase]
      simp only [Phase.left, List.map_cons, List.length_cons]
      omega

theorem step_seeking {turn : Turn ι} {slice : DeviceSlice} {entry : IndexEntry}
    {rest : List IndexEntry} {buffer : GDSDataBlockIterDevicePinnedBuffer}
    {context : GDSGetContext Bytes} {search : GDSBlockBasedTableReader.BlockSearch}
    (hphase : s.phase turn.lookup = .seeking slice entry rest buffer context)
    (hsearch : GDSBlockBasedTableReader.searchBlock
      { lookups.reader with readBlock := fun _ => .ok (s.file.memoryAt slice) } lookups.fuel
      (lookups.key turn.lookup) entry.value.handle buffer context =
        some (.returned (.ok search))) :
    lookups.step s turn = some { s with
      phase := Function.update s.phase turn.lookup
        (lookups.afterSearch turn.lookup slice entry rest search) } := by
  simp only [step, hphase, seekStep, hsearch]

theorem Invariant.seek (h : lookups.Invariant table s) (hhosts : lookups.Hosts table)
    {turn : Turn ι} {slice : DeviceSlice} {block : TableBlock} {blocks : List TableBlock}
    {buffer : GDSDataBlockIterDevicePinnedBuffer}
    (hblocks : lookups.Remaining table turn.lookup (block :: blocks))
    (hsize : slice.size = block.block.bytes.length)
    (hbacked : Backed lookups.contents.1 s.file slice block.index.value.handle.offset)
    (hphase : s.phase turn.lookup = .seeking slice block.index (blocks.map TableBlock.index) buffer
      (lookups.context turn.lookup)) : lookups.Advances table s turn := by
  have hmem := hblocks.mem
  have hplain : ∀ entry ∈ block.entries,
      entry.type = .kTypeValue ∨ entry.type.isDeletion = true := fun entry hentry =>
    hhosts.plain entry (List.mem_flatMap.mpr ⟨block, hmem, hentry⟩)
  have hdata := stores_memoryAt h.ready (hhosts.stored block hmem) hsize hbacked
  obtain ⟨iter, hsearch⟩ := GDSBlockBasedTableReader.searchBlock_plain
    { lookups.reader with readBlock := fun _ => .ok (s.file.memoryAt slice) }
    hhosts.serves.comparator block rfl hdata buffer (sorted_cons hblocks.sorted).1
    (lookups.user turn.lookup) (hhosts.snapshots turn.lookup) (hhosts.fuelled block hmem) hplain
    (show GDSBlockBasedTableReader.Fresh (lookups.context turn.lookup) from ⟨rfl, rfl, rfl, rfl⟩)
  cases hdrop : block.entries.dropWhile
      (before (lookups.user turn.lookup) (lookups.snapshot turn.lookup)) with
  | nil =>
    rw [hdrop] at hsearch
    refine h.advance (step_seeking hphase hsearch) (.reading _ (hblocks.tail hdrop)) ?_
    rw [hphase]
    exact Nat.lt_succ_self _
  | cons entry rest =>
    rw [hdrop] at hsearch
    obtain ⟨hsearch, hvalue, hends⟩ := hsearch
    obtain ⟨hsound, hleft⟩ := sound_afterSearch hhosts h.ready hbacked block.index
      (blocks.map TableBlock.index) (hblocks.newest_of_cons hdrop) hvalue (hsize ▸ hends)
    refine h.advance (step_seeking hphase hsearch) hsound (hleft.trans_lt ?_)
    rw [hphase, Phase.left]
    omega

theorem Invariant.copy (h : lookups.Invariant table s)
    (hnewest : table.newest (lookups.user turn.lookup) (lookups.snapshot turn.lookup) = some entry)
    (htype : entry.type = .kTypeValue)
    (hvalue : (lookups.contents.1.drop place).take value.size = entry.value)
    (hbacked : Backed lookups.contents.1 s.file value place)
    (hphase : s.phase turn.lookup = .copying value) : lookups.Advances table s turn := by
  have hstep : lookups.step s turn = some { s with
      phase := Function.update s.phase turn.lookup
        (.finished (.SUCCESS, some entry.value)) } := by
    simp only [step, hphase, hbacked.bytesOf h.ready, hvalue]
  refine h.advance hstep (sound_finished ?_) (by rw [hphase]; exact Nat.one_pos)
  rw [hnewest, yields, if_pos htype]

theorem Invariant.step (h : lookups.Invariant table s) (hhosts : lookups.Hosts table)
    (hallowed : lookups.Undisturbing s turn) :
    (∃ result, s.phase turn.lookup = .finished result) ∨ lookups.Advances table s turn := by
  have hsound := h.sound turn.lookup
  generalize hphase : s.phase turn.lookup = phase at hsound
  cases hsound with
  | @reading blocks buffer hblocks =>
    refine Or.inr ?_
    cases blocks with
    | nil =>
      have hstep : lookups.step s turn = some { s with
          phase := Function.update s.phase turn.lookup
            (.finished (.KEY_NOT_FOUND, none)) } := by
        simp only [Lookups.step, hphase, List.map_nil, hhosts.ending]
      refine h.advance hstep (sound_finished ?_) (by rw [hphase]; exact Nat.succ_pos _)
      rw [hblocks.newest_of_nil, yields]
    | cons block blocks => exact h.read hhosts hallowed hblocks hphase
  | seeking buffer hblocks hsize hbacked =>
    exact Or.inr (h.seek hhosts hblocks hsize hbacked hphase)
  | copying hnewest htype hvalue hbacked =>
    exact Or.inr (h.copy hnewest htype hvalue hbacked hphase)
  | finished => exact Or.inl ⟨_, rfl⟩

theorem invariant_of_reachable (hhosts : lookups.Hosts table)
    (h : lookups.machine.Reachable lookups.Undisturbing s) : lookups.Invariant table s := by
  refine h.invariant ?_ ?_
  · rintro s ⟨hready, hphase⟩
    refine ⟨hready, fun lookup => ?_⟩
    rw [hphase]
    exact sound_start hhosts s.file lookup
  · intro s turn s' hinvariant hallowed hstep
    rcases hinvariant.step hhosts hallowed with ⟨result, hfinished⟩ | ⟨next, hnext, hkept, -⟩
    · have hstuck : lookups.step s turn = none := by simp only [Lookups.step, hfinished]
      cases hstuck.symm.trans hstep
    · cases hnext.symm.trans hstep
      exact hkept

-- In a run whose reads all leave the slices of the other lookups alone, every lookup that ends
-- yields the newest visible version of its own key, and no lookup stops before its end.
theorem lookups_isolated (lookups : Lookups ι) (table : Table) (hhosts : lookups.Hosts table)
    (s : System ι) (h : lookups.machine.Reachable lookups.Undisturbing s) :
    (∀ lookup result, (s.phase lookup).result? = some result →
      result = yields (table.newest (lookups.user lookup) (lookups.snapshot lookup))) ∧
    ∀ turn, lookups.Undisturbing s turn → (s.phase turn.lookup).result? = none →
      ∃ s', lookups.step s turn = some s' ∧
        (s'.phase turn.lookup).left < (s.phase turn.lookup).left := by
  have hinvariant := invariant_of_reachable hhosts h
  constructor
  · intro lookup result hresult
    have hsound := hinvariant.sound lookup
    generalize s.phase lookup = phase at hsound hresult
    cases hsound with
    | finished => exact (Option.some.inj hresult).symm
    | reading | seeking | copying => cases hresult
  · intro turn hallowed hunfinished
    rcases hinvariant.step hhosts hallowed with ⟨result, hfinished⟩ | ⟨s', hstep, -, hleft⟩
    · rw [hfinished] at hunfinished
      cases hunfinished
    · exact ⟨s', hstep, hleft⟩

-- Two 64-bit keys, each with a vector of one 32-bit number, in two pages of a file that is read
-- without a cache.
def userOf (second : Bool) : Bytes :=
  Bytes.fixed 8 (if second = true then 2 else 1)

def valueOf (second : Bool) : Bytes :=
  Bytes.fixed 8 1 ++ Bytes.fixed 4 (if second = true then 20 else 10)

def page (second : Bool) : List (Entry Bytes) :=
  [⟨userOf second, 1, .kTypeValue, valueOf second⟩]

def twoPages : Table where
  blocks := [
    { entries := page false
      block := DataBlock.build 16 ((page false).map encodeEntry) (by decide)
      index := ⟨packKey (userOf false) 1 1, ⟨0, 39⟩, []⟩
      encodes := DataBlock.entries_build ..
      sequences := by decide
      short := by decide
      small := by decide +kernel
      sized := by decide +kernel
      bounded := by decide
      first := by decide },
    { entries := page true
      block := DataBlock.build 16 ((page true).map encodeEntry) (by decide)
      index := ⟨packKey (userOf true) 1 1, ⟨4096, 39⟩, []⟩
      encodes := DataBlock.entries_build ..
      sequences := by decide
      short := by decide
      small := by decide +kernel
      sized := by decide +kernel
      bounded := by decide
      first := by decide }]
  sorted := by decide

def pageBytes : Bytes :=
  (DataBlock.build 16 ((page false).map encodeEntry) (by decide)).bytes ++ List.replicate 4057 0 ++
    (DataBlock.build 16 ((page true).map encodeEntry) (by decide)).bytes ++ List.replicate 5 0

theorem length_pageBytes : pageBytes.length = 4140 := by
  decide +kernel

def pages : FileContents :=
  ⟨pageBytes, by rw [length_pageBytes]; decide⟩

def twoLookups : Lookups Bool where
  contents := pages
  options := { enableGPUCache := false }
  fileName := "000007.sst"
  trailerSize := 5
  reader := GDSBlockBasedTableReader.memoryReader twoPages
  skipFilters := false
  mergeOperator := none
  fuel := 4
  user := userOf
  snapshot _ := 1
  buffer _ := DataBlock.freshBuffer

def opened : System Bool where
  file := openFile { enableGPUCache := false } true pages (fun _ => 0) fun _ => 0
  phase := twoLookups.start

theorem twoLookups_hosts : twoLookups.Hosts twoPages where
  serves := GDSBlockBasedTableReader.memoryReader_serves twoPages (by decide)
  plain := by decide
  stored := by
    intro block hblock
    rcases List.mem_cons.mp hblock with rfl | hsecond
    · exact ⟨(show 44 ≤ 4140 by decide).trans length_pageBytes.ge, by decide +kernel⟩
    · obtain rfl := List.mem_singleton.mp hsecond
      exact ⟨length_pageBytes.ge, by decide +kernel⟩
  snapshots := by decide
  aligned := by decide
  fuelled := by decide

-- Without a cache, a read is safe when no lookup uses a slice.
def idle (s : System Bool) (turn : Turn Bool) : Bool :=
  match s.phase turn.lookup with
  | .reading _ _ _ => s.file.gpuCache.isNone &&
      ((s.phase false).slice?.isNone && (s.phase true).slice?.isNone)
  | _ => true

theorem undisturbing_of_idle (s : System Bool) (turn : Turn Bool) (h : idle s turn = true) :
    twoLookups.Undisturbing s turn := by
  intro entry rest buffer context hphase
  simp only [idle, hphase, Bool.and_eq_true, Option.isNone_iff_eq_none] at h
  obtain ⟨hcache, hfirst, hsecond⟩ := h
  refine ⟨Or.inl hcache, fun other slice hslice => ?_⟩
  cases other with
  | false =>
    rw [hfirst] at hslice
    cases hslice
  | true =>
    rw [hsecond] at hslice
    cases hslice

def oneByOne : List (Turn Bool) :=
  [⟨false, none⟩, ⟨false, none⟩, ⟨false, none⟩, ⟨true, none⟩, ⟨true, none⟩, ⟨true, none⟩]

theorem lookups_one_by_one :
    ∃ s, twoLookups.machine.exec opened oneByOne = some s ∧
      (s.phase false).result? = some (.SUCCESS, some (valueOf false)) ∧
      (s.phase true).result? = some (.SUCCESS, some (valueOf true)) := by
  have hends : (twoLookups.machine.exec opened oneByOne).map (fun s =>
      (s.phase false).result?.isSome && (s.phase true).result?.isSome) = some true := by
    decide +kernel
  obtain ⟨s, hexec, hfinished⟩ := Option.map_eq_some_iff.mp hends
  have hinitial : twoLookups.machine.initial opened := ⟨ready_openFile .., rfl⟩
  have hreachable := (Transition.Machine.Reachable.start hinitial).exec oneByOne
    (Transition.Machine.Allows.of_check undisturbing_of_idle (by decide +kernel)) hexec
  obtain ⟨hresults, -⟩ := lookups_isolated twoLookups twoPages twoLookups_hosts s hreachable
  obtain ⟨hfirst, hsecond⟩ := (Bool.and_eq_true _ _).mp hfinished
  obtain ⟨first, hfirst⟩ := Option.isSome_iff_exists.mp hfirst
  obtain ⟨second, hsecond⟩ := Option.isSome_iff_exists.mp hsecond
  refine ⟨s, hexec, ?_, ?_⟩
  · rw [hfirst, hresults false first hfirst]
    decide
  · rw [hsecond, hresults true second hsecond]
    decide

-- The second read goes through the buffer that has the value of the first lookup.
theorem other_value_copied :
    twoLookups.Hosts twoPages ∧ twoLookups.machine.initial opened ∧
      yields (twoPages.newest (twoLookups.user false) (twoLookups.snapshot false)) =
        (.SUCCESS, some (valueOf false)) ∧
      (twoLookups.machine.exec opened
        [⟨false, none⟩, ⟨false, none⟩, ⟨true, none⟩, ⟨false, none⟩]).map
          (fun s => (s.phase false).result?) = some (some (.SUCCESS, some (valueOf true))) :=
  ⟨twoLookups_hosts, ⟨ready_openFile .., rfl⟩, by decide, by decide +kernel⟩

end Lookups

end MlkvPlus.Gds
