import MlkvPlus.Db.GdsReads

namespace MlkvPlus

open Tiered

variable {K V : Type} {dim : Nat} [Scalar K] [Scalar V] {reserved : K → Bool}

namespace DB

variable [DecidableEq K]

-- The bytes that the configured path reads for the missed key at an index.
def PathReads (memtable files : K → Bool) (s : DB K V dim) (keys : List K) (index : Nat) (key : K)
    (raw : Bytes) : Prop :=
  if s.config.enableGdsGetFromSst = true then
    MemDiskTree.GdsReads memtable files s.config s.rocks (missedKeys s.config s.gpu keys) index key raw
  else files key = true ∧ s.rocks.stored key = some raw

variable {s : DB K V dim} {env : ReadEnv reserved V dim} {keys : List K} {key : K}
  {values : Vector V dim}

section PathReads

variable {memtable files : K → Bool} {index : Nat} {raw other : Bytes}

theorem Reached.isEncoding_of_pathReads (h : Reached reserved s)
    (hreads : PathReads memtable files s keys index key raw) : IsEncoding V dim raw := by
  unfold PathReads at hreads
  split at hreads
  · rcases hreads.2 with ⟨-, hraw⟩ | ⟨-, hraw, -⟩
    · exact h.encoded.memtable _ raw hraw
    · exact h.encoded.sst _ raw hraw
  · exact h.encoded.get false _ raw hreads.2

theorem readValue_of_reads (hindex : (missedKeys s.config s.gpu keys)[index]? = some key)
    (hreads : PathReads env.memtableStatus env.readStatus s keys index key raw) :
    s.readValue env keys index key = MemDiskTree.loadVector env.heap raw := by
  unfold PathReads at hreads
  rw [readValue]
  split
  · rename_i hgds
    rw [if_pos hgds] at hreads
    exact MemDiskTree.gdsValue_of_reads hindex hreads
  · rename_i hgds
    rw [if_neg hgds, RocksDB.stored] at hreads
    rw [MemDiskTree.plainValue, if_pos hreads.1, hreads.2]
    rfl

theorem readValue_of_not_reads (hindex : (missedKeys s.config s.gpu keys)[index]? = some key)
    (hreads : ∀ raw, ¬PathReads env.memtableStatus env.readStatus s keys index key raw) :
    s.readValue env keys index key = env.garbage index := by
  unfold PathReads at hreads
  rw [readValue]
  split
  · rename_i hgds
    exact MemDiskTree.gdsValue_of_not_reads hindex fun raw hraw => hreads raw (by rwa [if_pos hgds])
  · rename_i hgds
    simp only [if_neg hgds, RocksDB.stored, not_and] at hreads
    rw [MemDiskTree.plainValue]
    split
    · rename_i hstatus
      cases hraw : s.rocks.get false (Scalar.toBytes key) with
      | none => rfl
      | some raw => exact absurd hraw (hreads raw hstatus)
    · rfl

omit [Scalar V] in
-- Where every read works, the configured path has what is stored, or nothing.
theorem stored_of_pathReads
    (h : PathReads (fun _ => true) (fun _ => true) s keys index key raw) :
    s.rocks.stored key = some raw := by
  unfold PathReads at h
  split at h
  · exact MemDiskTree.stored_of_gdsReads h
  · exact h.2

omit [Scalar V] in
-- What a path reads for a missed key, and what is stored for it, are the same if single reads show
-- it too.
theorem stored_of_reads (hbelow : s.below key = some raw)
    (hreads : PathReads memtable files s keys index key raw) :
    s.rocks.stored key = some raw ∧
      (s.config.enableGdsGetFromSst = true → s.config.forceSkipMemtable = false) := by
  unfold PathReads at hreads
  split at hreads
  · refine ⟨?_, fun _ => hreads.1⟩
    rw [below, hreads.1] at hbelow
    exact hbelow
  · rename_i hgds
    exact ⟨hreads.2, fun htrue => absurd htrue hgds⟩

end PathReads

theorem Sane.clean_answers (h : Sane reserved s) (henv : env.Clean) (hkeys : keys ≠ []) :
    ∃ answer next, s.multiget env keys = (.returned (.SUCCESS, keys.map answer), next) ∧
      Answers env s keys answer := by
  by_cases hfound : ∀ key ∈ keys, (s.gpu key).isSome = true
  · exact h.answers_of_found hkeys ((saysAllFound_iff henv.toWorks).mpr hfound)
      fun key hkey _ => hfound key hkey
  · exact h.multiget_answers henv.fault (goesBelow_of_works henv.toWorks hfound)

-- Every batch read that meets no failure reports the vector at the index.
def BatchReturns (reserved : K → Bool) (s : DB K V dim) (keys : List K) (index : Nat)
    (values : Vector V dim) : Prop :=
  ∀ env : ReadEnv reserved V dim, env.Clean → ∃ found next,
    s.multiget env keys = (.returned (.SUCCESS, found), next) ∧ found[index]? = some (some values)

-- What batch reads returned for the key they still return.
def KeepsBatchReads (reserved : K → Bool) (s s' : DB K V dim) (key : K) : Prop :=
  ∀ (keys : List K) (index : Nat) values, keys[index]? = some key →
    BatchReturns reserved s keys index values → BatchReturns reserved s' keys index values

section Batch

variable {index : Nat}

theorem Sane.batchReturns_iff (h : Sane reserved s) (hindex : keys[index]? = some key) :
    BatchReturns reserved s keys index values ↔
      ∀ env : ReadEnv reserved V dim, env.Clean → ∀ answer, Answers env s keys answer →
        (∃ next, s.multiget env keys = (.returned (.SUCCESS, keys.map answer), next)) →
          answer key = some values := by
  have hkeys := List.ne_nil_of_mem (List.mem_of_getElem? hindex)
  have hat : ∀ answer : K → Option (Vector V dim), (keys.map answer)[index]? = some (answer key) := by
    intro answer
    rw [List.getElem?_map, hindex, Option.map_some]
  constructor
  · rintro hreturns env henv answer - ⟨next, hmultiget⟩
    obtain ⟨found, other, hother, hvalues⟩ := hreturns env henv
    rw [hmultiget] at hother
    cases hother
    rw [hat] at hvalues
    exact Option.some.inj hvalues
  · intro hanswer env henv
    obtain ⟨answer, next, hmultiget, hanswers⟩ := h.clean_answers henv hkeys
    refine ⟨_, next, hmultiget, ?_⟩
    rw [hat, hanswer env henv answer hanswers ⟨next, hmultiget⟩]

theorem Sane.not_batchReturns (h : Sane reserved s) (hindex : keys[index]? = some key)
    (hreserved : reserved key = true) : ¬BatchReturns reserved s keys index values := by
  intro hreturns
  have hkey := List.mem_of_getElem? hindex
  obtain ⟨answer, next, hmultiget, hanswers⟩ :=
    h.clean_answers (ReadEnv.clean_dropping []) (List.ne_nil_of_mem hkey)
  have hsome := (h.batchReturns_iff hindex).mp hreturns _ (ReadEnv.clean_dropping []) answer hanswers
    ⟨next, hmultiget⟩
  rw [hanswers.refused key hkey hreserved] at hsome
  cases hsome

theorem Sane.batchReturns_gpu_iff (h : Sane reserved s) (hindex : keys[index]? = some key)
    (hgpu : s.gpu key = some held) : BatchReturns reserved s keys index values ↔ values = held := by
  have hkey := List.mem_of_getElem? hindex
  rw [h.batchReturns_iff hindex]
  constructor
  · intro hanswer
    obtain ⟨answer, next, hmultiget, hanswers⟩ :=
      h.clean_answers (ReadEnv.clean_dropping []) (List.ne_nil_of_mem hkey)
    have hsome := hanswer _ (ReadEnv.clean_dropping []) answer hanswers ⟨next, hmultiget⟩
    rw [hanswers.gpu key hkey held hgpu] at hsome
    exact (Option.some.inj hsome).symm
  · rintro rfl env - answer hanswers -
    exact hanswers.gpu key hkey values hgpu

theorem Sane.batchReturns_of_back (h : Sane reserved s) (hindex : keys[index]? = some key)
    (hfree : reserved key = false) (hgpu : s.gpu key = none)
    (hback : ∀ env : ReadEnv reserved V dim, env.Clean → ∀ found,
      (key, found) ∈ s.backPairs env keys → found = values) :
    BatchReturns reserved s keys index values := by
  refine (h.batchReturns_iff hindex).mpr fun env henv answer hanswers _ => ?_
  obtain ⟨found, hmem, hfound⟩ := hanswers.missed key (List.mem_of_getElem? hindex) hfree hgpu
  rw [hfound, hback env henv found hmem]

theorem Sane.batchReturns_of_one (h : Sane reserved s) (hindex : keys[index]? = some key)
    (hfree : reserved key = false) (hone : Subsingleton (Vector V dim)) (values : Vector V dim) :
    BatchReturns reserved s keys index values := by
  cases hgpu : s.gpu key with
  | some held => exact (h.batchReturns_gpu_iff hindex hgpu).mpr (Subsingleton.elim _ _)
  | none => exact h.batchReturns_of_back hindex hfree hgpu fun _ _ _ _ => Subsingleton.elim _ _

-- The key has the vector in the table or in the memtable.
def Keeps (s : DB K V dim) (key : K) (values : Vector V dim) : Prop :=
  s.gpu key = some values ∨ s.gpu key = none ∧
    s.rocks.memtable (Scalar.toBytes key) = some (serializeValueArray values)

theorem Sane.batchReturns_of_keeps (hdim : dim < 2 ^ 64) (h : Sane reserved s)
    (hindex : keys[index]? = some key) (hfree : reserved key = false) (hkeeps : s.Keeps key values)
    (hskip : s.config.enableGdsGetFromSst = true → s.config.forceSkipMemtable = false) :
    BatchReturns reserved s keys index values := by
  rcases hkeeps with hgpu | ⟨hgpu, hraw⟩
  · exact (h.batchReturns_gpu_iff hindex hgpu).mpr rfl
  · refine h.batchReturns_of_back hindex hfree hgpu fun env henv found hfound => ?_
    obtain ⟨place, hplace, rfl⟩ := mem_backPairs.mp hfound
    have hreads : PathReads env.memtableStatus env.readStatus s keys place key
        (serializeValueArray values) := by
      unfold PathReads
      split
      · rename_i hgds
        exact ⟨hskip hgds, Or.inl ⟨henv.memtable key, hraw⟩⟩
      · exact ⟨henv.read key, overlay_of_some hraw⟩
    rw [readValue_of_reads hplace hreads, MemDiskTree.loadVector_serialize hdim]

-- What batch reads return for a missed key was read at one of its places.
theorem Sane.readValue_of_batchReturns (h : Sane reserved s) (hindex : keys[index]? = some key)
    (hfree : reserved key = false) (hgpu : s.gpu key = none) (henv : env.Clean)
    (hreturns : BatchReturns reserved s keys index values) :
    ∃ place : Nat, (missedKeys s.config s.gpu keys)[place]? = some key ∧
      s.readValue env keys place key = values := by
  have hkey := List.mem_of_getElem? hindex
  obtain ⟨answer, next, hmultiget, hanswers⟩ := h.clean_answers henv (List.ne_nil_of_mem hkey)
  have hsome := (h.batchReturns_iff hindex).mp hreturns env henv answer hanswers ⟨next, hmultiget⟩
  obtain ⟨found, hfound, hanswer⟩ := hanswers.missed key hkey hfree hgpu
  rw [hanswer] at hsome
  obtain ⟨place, hplace, rfl⟩ := mem_backPairs.mp hfound
  exact ⟨place, hplace, Option.some.inj hsome⟩

-- It is what is stored, if the bytes of the key are read at all.
theorem Reached.eq_of_batchReturns (hdim : dim < 2 ^ 64) (h : Reached reserved s)
    (hindex : keys[index]? = some key) (hfree : reserved key = false) (hgpu : s.gpu key = none)
    {stored : Vector V dim} (hstored : s.rocks.stored key = some (serializeValueArray stored))
    (hreturns : BatchReturns reserved s keys index values) : values = stored := by
  let env : ReadEnv reserved V dim :=
    { ReadEnv.dropping reserved [] none with garbage := fun _ => stored }
  have henv : env.Clean := ⟨⟨fun _ => rfl, rfl⟩, rfl, fun _ => rfl, fun _ => rfl⟩
  obtain ⟨place, hplace, rfl⟩ :=
    h.toSane.readValue_of_batchReturns hindex hfree hgpu henv hreturns
  by_cases hreads : ∃ raw, PathReads env.memtableStatus env.readStatus s keys place key raw
  · obtain ⟨raw, hraw⟩ := hreads
    have hsame : s.rocks.stored key = some raw := stored_of_pathReads hraw
    rw [hstored] at hsame
    cases hsame
    rw [readValue_of_reads hplace hraw, MemDiskTree.loadVector_serialize hdim]
  · rw [readValue_of_not_reads hplace fun raw hraw => hreads ⟨raw, hraw⟩]

-- The GDS path reads nothing when it skips the memtable.
theorem Reached.one_of_batchReturns (hdim : dim < 2 ^ 64) (h : Reached reserved s)
    (hskip : s.config.forceSkipMemtable = true) (hgds : s.config.enableGdsGetFromSst = true)
    (hindex : keys[index]? = some key) (hfree : reserved key = false) (hgpu : s.gpu key = none)
    (hreturns : BatchReturns reserved s keys index values) : Subsingleton (Vector V dim) := by
  by_contra hone
  obtain ⟨wrong, hwrong⟩ := exists_other_vector hdim (some (serializeValueArray values))
    fun hsame => hone hsame.1
  let env : ReadEnv reserved V dim :=
    { ReadEnv.dropping reserved [] none with garbage := fun _ => wrong }
  have henv : env.Clean := ⟨⟨fun _ => rfl, rfl⟩, rfl, fun _ => rfl, fun _ => rfl⟩
  obtain ⟨place, hplace, hvalue⟩ :=
    h.toSane.readValue_of_batchReturns hindex hfree hgpu henv hreturns
  rw [readValue_of_not_reads hplace] at hvalue
  · exact hwrong (by rw [← hvalue])
  · intro raw hreads
    rw [PathReads, if_pos hgds] at hreads
    have hfalse := hreads.1
    rw [hskip] at hfalse
    cases hfalse

end Batch

end DB

end MlkvPlus
