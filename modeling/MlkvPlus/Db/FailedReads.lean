import MlkvPlus.Db.FailedWrites
import MlkvPlus.Db.BatchReads

namespace MlkvPlus

open Tiered

variable {K V : Type} {dim : Nat} [Scalar K] [Scalar V] {reserved : K → Bool}

namespace DB

section Statements

variable [DecidableEq K]

-- The key is not reported with a vector that it does not have, and reads that do not fail
-- return for it what they returned before.
structure NotDamaged (env : ReadEnv reserved V dim) (s : DB K V dim) (keys : List K) (key : K) :
    Prop where
  reported : ∀ found next (index : Nat) values,
    s.multiget env keys = (.returned (.SUCCESS, found), next) → keys[index]? = some key →
      found[index]? = some (some values) → Returns reserved s key values
  get : KeepsRead reserved s (s.multiget env keys).2 key
  multiget : KeepsBatchReads reserved s (s.multiget env keys).2 key

-- What a key of the table can come to: with the others read back it may go to the memtable, which
-- single reads and the GDS path may skip.
def StaysReadable (reserved : K → Bool) (s : DB K V dim) (keys : List K) (key : K)
    (values : Vector V dim) : Prop :=
  s.config.forceSkipMemtable = false ∨
    (∀ other ∈ keys, reserved other = false → (s.gpu other).isSome = true) ∨
    s.below key = some (serializeValueArray values) ∧
      (s.config.enableGdsGetFromSst = false ∨ Subsingleton (Vector V dim))

-- The lower tier is not asked for the key, or the configured path reads what the key has all the
-- same. `memtable` and `files` say which reads of the lower tier work.
def FailureHarmless (reserved : K → Bool) (memtable files : K → Bool) (s : DB K V dim)
    (keys : List K) (key : K) : Prop :=
  reserved key = true ∨ (∃ values, s.gpu key = some values ∧ StaysReadable reserved s keys key values) ∨
    s.gpu key = none ∧ ∃ raw, s.below key = some raw ∧
      (Subsingleton (Vector V dim) ∨ ∀ index : Nat,
        (missedKeys s.config s.gpu keys)[index]? = some key →
          PathReads memtable files s keys index key raw)

end Statements

variable [DecidableEq K] {s : DB K V dim} {env : ReadEnv reserved V dim} {keys : List K} {key : K}
  {values : Vector V dim}

section Written

-- A key that the table has or gets, always with one vector, is in the table or in the memtable
-- afterwards.
theorem keeps_readBackTiers (hfault : env.fault = none)
    (hheld : s.gpu key = some values ∨ s.gpu key = none ∧ key ∈ keys ∧ reserved key = false)
    (hpairs : ∀ found, (key, found) ∈ s.backPairs env keys → found = values) :
    (s.readBackTiers env keys).Keeps key values := by
  let events := (env.schedule s.gpu (s.backPairs env keys)).events
  have horigin : ∀ found, (run s.gpu events).1 key = some found ∨
      (key, found) ∈ (run s.gpu events).2 → found = values := by
    intro found hfound
    rcases run_origin hfound with hbefore | hinsert
    · rcases hheld with hgpu | ⟨hgpu, -⟩
      · rw [hgpu] at hbefore
        exact (Option.some.inj hbefore).symm
      · rw [hgpu] at hbefore
        cases hbefore
    · have hcomplete := (env.schedule s.gpu (s.backPairs env keys)).complete
      exact hpairs found (List.mem_filter.mp (hcomplete.mem_iff.mp hinsert)).1
  rw [Keeps]
  cases hafter : (s.readBackTiers env keys).gpu key with
  | some found => exact Or.inl (by rw [horigin found (Or.inl hafter)])
  | none =>
    refine Or.inr ⟨rfl, ?_⟩
    have hdropped : key ∈ (run s.gpu events).2.map Prod.fst := by
      refine mem_dropped ?_ hafter
      rcases hheld with hgpu | ⟨hgpu, hkey, hfree⟩
      · exact Or.inl (by rw [hgpu]; rfl)
      · exact Or.inr ((mem_inserts_back env key).mpr ⟨⟨hkey, hgpu⟩, hfree⟩)
    have hrocks : (s.readBackTiers env keys).rocks =
        MemDiskTree.multiset s.rocks (run s.gpu events).2 := by
      rw [readBackTiers, attempted, hfault]
      rfl
    rw [hrocks]
    exact memtable_multiset s.rocks hdropped fun found hfound => horigin found (Or.inr hfound)

theorem shown_of_out (hfault : env.fault = none) (hout : s.gpu key = none → reserved key = true)
    (hstays : ∀ values, s.gpu key = some values → StaysReadable reserved s keys key values) :
    (s.readBackTiers env keys).shown key = s.shown key := by
  have hkept : env.fault.any Fault.losesEvicted = false := by rw [hfault]; rfl
  have hnotMem : key ∉ (inserts (env.schedule s.gpu (s.backPairs env keys)).events).map Prod.fst := by
    rw [mem_inserts_back]
    rintro ⟨⟨-, hnone⟩, hfree⟩
    rw [hout hnone] at hfree
    cases hfree
  cases hskip : s.config.forceSkipMemtable with
  | false => exact shown_of_written hnotMem hskip hkept
  | true =>
    by_cases hquiet : ∀ other ∈ keys, reserved other = false → (s.gpu other).isSome = true
    · rw [readBackTiers, attempted_quiet]
      intro other hother hfree
      rw [backPairs, map_fst_readBack, mem_missedKeys] at hother
      have hsome := hquiet other hother.1 hfree
      rw [hother.2] at hsome
      cases hsome
    · refine shown_of_covered hnotMem (Or.inl hskip) fun values hgpu => ?_
      rcases hstays values hgpu with hall | hall | ⟨hsame, -⟩
      · rw [hskip] at hall
        cases hall
      · exact absurd hall hquiet
      · exact hsame

theorem shown_of_same (hfault : env.fault = none) (hgpu : s.gpu key = none)
    (hshown : s.shown key = some (serializeValueArray values))
    (hpairs : ∀ found, (key, found) ∈ s.backPairs env keys → found = values) :
    (s.readBackTiers env keys).shown key = some (serializeValueArray values) := by
  have hkept : env.fault.any Fault.losesEvicted = false := by rw [hfault]; rfl
  have hinserts : ∀ found, (key, found) ∈
      inserts (env.schedule s.gpu (s.backPairs env keys)).events → found = values := by
    intro found hfound
    have hcomplete := (env.schedule s.gpu (s.backPairs env keys)).complete
    exact hpairs found (List.mem_filter.mp (hcomplete.mem_iff.mp hfound)).1
  cases hskip : s.config.forceSkipMemtable with
  | false =>
    rw [shown_eq_view hskip] at hshown
    rw [shown_eq_view (s := s.readBackTiers env keys) hskip, readBackTiers, view_attempted hkept]
    exact writeAll_encodeAll_same _ hshown hinserts
  | true =>
    cases hafter : (s.readBackTiers env keys).gpu key with
    | some found =>
      rcases run_origin (Or.inl hafter) with hbefore | hfound
      · rw [hgpu] at hbefore
        cases hbefore
      · rw [shown_of_gpu hafter, hinserts found hfound]
    | none =>
      rw [shown_of_missed hafter, readBackTiers,
        congrFun (below_attempted env.toWriteEnv (Or.inl hskip) _) key,
        ← shown_of_missed hgpu, hshown]

end Written

theorem Reached.notDamaged_of_found (hdim : dim < 2 ^ 64) (h : Reached reserved s)
    (hkeys : keys ≠ []) (hanswer : s.saysAllFound env keys) : NotDamaged env s keys key := by
  have hmultiget := multiget_found h.isOpen hkeys hanswer
  constructor
  · intro found next index values hreturned hindex hvalues
    rw [hmultiget] at hreturned
    cases hreturned
    rw [List.getElem?_map, hindex, Option.map_some] at hvalues
    exact (h.returns_iff hdim key values).mpr (shown_of_gpu (Option.some.inj hvalues))
  · rw [hmultiget]
    exact fun _ _ _ => id
  · rw [hmultiget]
    exact fun _ _ _ _ => id

theorem Reached.notDamaged_of_answers (hdim : dim < 2 ^ 64) (h : Reached reserved s)
    (hfault : env.fault = none) (hbelow : s.GoesBelow env keys)
    (hanswer : ∀ answer values, Answers env s keys answer → answer key = some values →
      Returns reserved s key values)
    (hsame : (s.readBackTiers env keys).shown key = s.shown key)
    (hbatch : ∀ t : DB K V dim, Reached reserved t → t.config = s.config →
      t.gpu = (s.readBackTiers env keys).gpu → t.rocks = (s.readBackTiers env keys).rocks →
        KeepsBatchReads reserved s t key) :
    NotDamaged env s keys key := by
  obtain ⟨answer, next, hmultiget, hanswers⟩ := h.toSane.multiget_answers hfault hbelow
  have hnext : Reached reserved (s.multiget env keys).2 := h.step (.multiget env keys)
  have hcuda : env.fault ≠ some .noTable := by rw [hfault]; nofun
  constructor
  · intro found other index values hother hindex hfound
    rw [hmultiget] at hother
    cases hother
    rw [List.getElem?_map, hindex] at hfound
    exact hanswer answer values hanswers (Option.some.inj hfound)
  · refine (h.keepsRead_iff hdim hnext key).mpr fun raw hraw => ?_
    rw [shown_multiget h.isOpen hbelow hcuda, hsame, hraw]
  · obtain ⟨buffer, htiers⟩ := multiget_tiers h.isOpen hbelow hcuda
    refine hbatch _ hnext ?_ ?_ ?_
    · rw [htiers]
      rfl
    · rw [htiers]
    · rw [htiers]

theorem Reached.keepsBatch_of_gpu (hdim : dim < 2 ^ 64) (h : Reached reserved s)
    (hfault : env.fault = none) (hgpu : s.gpu key = some held)
    (hstays : StaysReadable reserved s keys key held) (ht : Reached reserved t)
    (hconfig : t.config = s.config) (htable : t.gpu = (s.readBackTiers env keys).gpu)
    (hrocks : t.rocks = (s.readBackTiers env keys).rocks) : KeepsBatchReads reserved s t key := by
  have hfree : reserved key = false := h.gpu key (by rw [hgpu]; rfl)
  have hout : ∀ found, (key, found) ∈ s.backPairs env keys → found = held := by
    intro found hfound
    have hmissed := List.mem_map_of_mem (f := Prod.fst) hfound
    rw [backPairs, map_fst_readBack, mem_missedKeys, hgpu] at hmissed
    cases hmissed.2
  have hkeeps : t.Keeps key held := by
    rw [Keeps, htable, hrocks]
    exact keeps_readBackTiers hfault (Or.inl hgpu) hout
  intro others index values hindex hreturns
  obtain rfl := (h.toSane.batchReturns_gpu_iff hindex hgpu).mp hreturns
  rcases hstays with hskip | hquiet | ⟨-, hplain | hone⟩
  · exact ht.toSane.batchReturns_of_keeps hdim hindex hfree hkeeps fun _ => by rw [hconfig, hskip]
  · refine (ht.toSane.batchReturns_gpu_iff hindex ?_).mpr rfl
    rw [htable, readBackTiers, attempted_quiet, hgpu]
    intro other hother hreserved
    rw [backPairs, map_fst_readBack, mem_missedKeys] at hother
    have hsome := hquiet other hother.1 hreserved
    rw [hother.2] at hsome
    cases hsome
  · refine ht.toSane.batchReturns_of_keeps hdim hindex hfree hkeeps fun hgds => ?_
    rw [hconfig, hplain] at hgds
    cases hgds
  · exact ht.toSane.batchReturns_of_one hindex hfree hone _

theorem back_of_harmless (hdim : dim < 2 ^ 64) {stored : Vector V dim}
    (hreads : Subsingleton (Vector V dim) ∨ ∀ index : Nat,
      (missedKeys s.config s.gpu keys)[index]? = some key →
        PathReads env.memtableStatus env.readStatus s keys index key (serializeValueArray stored)) :
    ∀ found, (key, found) ∈ s.backPairs env keys → found = stored := by
  intro found hfound
  rcases hreads with hone | hreads
  · exact Subsingleton.elim found stored
  · obtain ⟨index, hindex, rfl⟩ := mem_backPairs.mp hfound
    rw [readValue_of_reads hindex (hreads index hindex), MemDiskTree.loadVector_serialize hdim]

theorem Reached.keepsBatch_of_missed (hdim : dim < 2 ^ 64) (h : Reached reserved s)
    (hfault : env.fault = none) (hkey : key ∈ keys) (hfree : reserved key = false)
    (hgpu : s.gpu key = none) {stored : Vector V dim}
    (hbelow : s.below key = some (serializeValueArray stored))
    (hreads : Subsingleton (Vector V dim) ∨ ∀ index : Nat,
      (missedKeys s.config s.gpu keys)[index]? = some key →
        PathReads env.memtableStatus env.readStatus s keys index key (serializeValueArray stored))
    (ht : Reached reserved t) (hconfig : t.config = s.config)
    (htable : t.gpu = (s.readBackTiers env keys).gpu)
    (hrocks : t.rocks = (s.readBackTiers env keys).rocks) : KeepsBatchReads reserved s t key := by
  intro others index values hindex hreturns
  rcases hreads with hone | hreads
  · exact ht.toSane.batchReturns_of_one hindex hfree hone values
  have hmissed : key ∈ missedKeys s.config s.gpu keys := mem_missedKeys.mpr ⟨hkey, hgpu⟩
  obtain ⟨place, hplace⟩ := List.mem_iff_getElem?.mp hmissed
  obtain ⟨hstored, hskip⟩ := stored_of_reads hbelow (hreads place hplace)
  obtain rfl := h.eq_of_batchReturns hdim hindex hfree hgpu hstored hreturns
  refine ht.toSane.batchReturns_of_keeps hdim hindex hfree ?_ (by rwa [hconfig])
  rw [Keeps, htable, hrocks]
  exact keeps_readBackTiers hfault (Or.inr ⟨hgpu, hkey, hfree⟩)
    (back_of_harmless hdim (Or.inr hreads))

theorem Reached.notDamaged_of_reserved (hdim : dim < 2 ^ 64) (h : Reached reserved s)
    (hfault : env.fault = none) (hbelow : s.GoesBelow env keys) (hkey : key ∈ keys)
    (hreserved : reserved key = true) : NotDamaged env s keys key := by
  refine h.notDamaged_of_answers hdim hfault hbelow (fun answer values hanswers hvalues => ?_) ?_ ?_
  · rw [hanswers.refused key hkey hreserved] at hvalues
    cases hvalues
  · refine shown_of_out hfault (fun _ => hreserved) fun values hgpu => ?_
    rw [h.gpu key (by rw [hgpu]; rfl)] at hreserved
    cases hreserved
  · intro t _ _ _ _ others index values hindex hreturns
    exact absurd hreturns (h.toSane.not_batchReturns hindex hreserved)

theorem Reached.notDamaged (hdim : dim < 2 ^ 64) (h : Reached reserved s) (hfault : env.fault = none)
    (hhost : env.hostReads = true) (hkey : key ∈ keys)
    (hharmless : FailureHarmless reserved env.memtableStatus env.readStatus s keys key) :
    NotDamaged env s keys key := by
  have hkeys := List.ne_nil_of_mem hkey
  by_cases hanswer : s.saysAllFound env keys
  · exact h.notDamaged_of_found hdim hkeys hanswer
  have hbelow : s.GoesBelow env keys := ⟨hkeys, hanswer, not_crashes_of_host hhost _⟩
  by_cases hreserved : reserved key = true
  · exact h.notDamaged_of_reserved hdim hfault hbelow hkey hreserved
  have hfree := Bool.eq_false_of_not_eq_true hreserved
  rcases hharmless.resolve_left hreserved with ⟨held, hgpu, hstays⟩ | ⟨hgpu, raw, hraw, hreads⟩
  · refine h.notDamaged_of_answers hdim hfault hbelow (fun answer values hanswers hvalues => ?_) ?_
      fun t ht hconfig htable hrocks =>
        h.keepsBatch_of_gpu hdim hfault hgpu hstays ht hconfig htable hrocks
    · rw [hanswers.gpu key hkey held hgpu] at hvalues
      cases hvalues
      exact (h.returns_iff hdim key _).mpr (shown_of_gpu hgpu)
    · refine shown_of_out hfault (fun hnone => ?_) fun values hvalues => ?_
      · rw [hgpu] at hnone
        cases hnone
      · rw [hgpu] at hvalues
        cases hvalues
        exact hstays
  · have hshown : s.shown key = some raw := (shown_of_missed hgpu).trans hraw
    obtain ⟨stored, rfl⟩ := h.isEncoding hshown
    have hpairs := back_of_harmless hdim hreads
    refine h.notDamaged_of_answers hdim hfault hbelow (fun answer values hanswers hvalues => ?_) ?_
      fun t ht hconfig htable hrocks =>
        h.keepsBatch_of_missed hdim hfault hkey hfree hgpu hraw hreads ht hconfig htable hrocks
    · obtain ⟨back, hmem, hback⟩ := hanswers.missed key hkey hfree hgpu
      rw [hback] at hvalues
      cases hvalues
      rw [hpairs _ hmem]
      exact (h.returns_iff hdim key stored).mpr hshown
    · rw [shown_of_same hfault hgpu hshown hpairs, hshown]

section Needed

variable {memtable files : K → Bool}

-- A key of the table may go with what is read back for the others.
theorem Reached.stays_of_notDamaged (hdim : dim < 2 ^ 64) (h : Reached reserved s)
    (hgpu : s.gpu key = some values)
    (hall : ∀ env : ReadEnv reserved V dim, env.fault = none → env.hostReads = true →
      env.memtableStatus = memtable → env.readStatus = files → NotDamaged env s keys key) :
    StaysReadable reserved s keys key values := by
  by_contra hnot
  simp only [StaysReadable, not_or, not_forall, Bool.not_eq_false, not_and] at hnot
  obtain ⟨hskip, ⟨missed, hmissed, hfree, hnone⟩, hlost⟩ := hnot
  rw [Option.not_isSome_iff_eq_none] at hnone
  let env : ReadEnv reserved V dim :=
    { ReadEnv.dropping reserved [key] none with
      memtableStatus := memtable
      readStatus := files }
  have hpairs : ∀ other, other ∈ (s.backPairs env keys).map Prod.fst ↔
      other ∈ keys ∧ s.gpu other = none := by
    intro other
    rw [backPairs, map_fst_readBack, mem_missedKeys]
  have hkey : key ∉ (s.backPairs env keys).map Prod.fst := by
    rw [hpairs, hgpu]
    rintro ⟨-, hnone⟩
    cases hnone
  have hgone : (s.readBackTiers env keys).gpu key = none :=
    (attempted_dropping none ((hpairs missed).mpr ⟨hmissed, hnone⟩) hfree hkey hgpu).1
  have hbelow : s.GoesBelow env keys :=
    goesBelow_of_works ⟨fun _ => rfl, rfl⟩ (not_all_found hmissed hnone)
  have hfault : env.fault ≠ some .noTable := Option.some_ne_none _ |>.symm
  have hdamage := hall env rfl rfl rfl rfl
  have hnext : Reached reserved (s.multiget env keys).2 := h.step (.multiget env keys)
  have hsst : s.below key = some (serializeValueArray values) := by
    have hkept := (h.keepsRead_iff hdim hnext key).mp hdamage.get _ (shown_of_gpu hgpu)
    rwa [shown_multiget h.isOpen hbelow hfault, shown_of_missed hgone, readBackTiers,
      congrFun (below_attempted env.toWriteEnv (Or.inl hskip) _) key] at hkept
  -- single reads find it in the files, but the GDS path reads nothing
  obtain ⟨hgds, hone⟩ := hlost hsst
  have hreturns := hdamage.multiget [key] 0 values rfl
    ((h.toSane.batchReturns_gpu_iff rfl hgpu).mpr rfl)
  obtain ⟨buffer, htiers⟩ := multiget_tiers h.isOpen hbelow hfault
  rw [htiers] at hnext hreturns
  exact hone (hnext.one_of_batchReturns hdim hskip hgds rfl (h.gpu key (by rw [hgpu]; rfl)) hgone
    hreturns)

-- What is not there would be reported.
theorem Reached.shown_of_notDamaged (hdim : dim < 2 ^ 64) (h : Reached reserved s)
    (hkey : key ∈ keys) (hfree : reserved key = false) (hgpu : s.gpu key = none)
    (hall : ∀ env : ReadEnv reserved V dim, env.fault = none → env.hostReads = true →
      env.memtableStatus = memtable → env.readStatus = files → NotDamaged env s keys key) :
    (s.shown key).isSome = true := by
  let env : ReadEnv reserved V dim :=
    { ReadEnv.dropping reserved [] none with
      memtableStatus := memtable
      readStatus := files }
  have hbelow : s.GoesBelow env keys :=
    goesBelow_of_works ⟨fun _ => rfl, rfl⟩ (not_all_found hkey hgpu)
  obtain ⟨answer, next, hmultiget, hanswers⟩ := h.toSane.multiget_answers rfl hbelow
  obtain ⟨values, -, hvalues⟩ := hanswers.missed key hkey hfree hgpu
  obtain ⟨index, hindex⟩ := List.mem_iff_getElem?.mp hkey
  have hreturns := (hall env rfl rfl rfl rfl).reported _ _ index values hmultiget hindex (by
    rw [List.getElem?_map, hindex, Option.map_some, hvalues])
  rw [(h.returns_iff hdim key values).mp hreturns]
  rfl

-- What a read that does not get the bytes of the key brings in, whatever the schedule is.
theorem Reached.exists_wrong_value (hdim : dim < 2 ^ 64) (h : Reached reserved s)
    (hone : ¬Subsingleton (Vector V dim)) {index : Nat}
    (hindex : (missedKeys s.config s.gpu keys)[index]? = some key)
    (hreads : ¬PathReads memtable files s keys index key raw) :
    ∃ wrong bad : Vector V dim, (∀ env : ReadEnv reserved V dim, env.memtableStatus = memtable →
      env.readStatus = files → env.garbage = (fun _ => wrong) →
        s.readValue env keys index key = bad) ∧ some raw ≠ some (serializeValueArray bad) := by
  obtain ⟨wrong, hwrong⟩ := exists_other_vector hdim (some raw) fun hsame => hone hsame.1
  refine ⟨wrong, ?_⟩
  by_cases hother : ∃ other, PathReads memtable files s keys index key other
  · obtain ⟨other, hother⟩ := hother
    obtain ⟨bad, rfl⟩ := h.isEncoding_of_pathReads hother
    refine ⟨bad, fun env hmemtable hfiles _ => ?_, fun hsame => ?_⟩
    · rw [readValue_of_reads hindex (by rwa [hmemtable, hfiles]),
        MemDiskTree.loadVector_serialize hdim]
    · rw [Option.some.inj hsame] at hreads
      exact hreads hother
  · refine ⟨wrong, fun env hmemtable hfiles hgarbage => ?_, hwrong⟩
    rw [readValue_of_not_reads hindex, hgarbage]
    rw [hmemtable, hfiles]
    exact fun other hreads => hother ⟨other, hreads⟩

-- What is in memory for the value of a failed read may be any vector, and any of the pairs of the
-- key may be the last one to come in.
theorem Reached.reads_of_notDamaged (hdim : dim < 2 ^ 64) (h : Reached reserved s)
    (hkey : key ∈ keys) (hfree : reserved key = false) (hgpu : s.gpu key = none)
    (hall : ∀ env : ReadEnv reserved V dim, env.fault = none → env.hostReads = true →
      env.memtableStatus = memtable → env.readStatus = files → NotDamaged env s keys key) :
    ∃ raw, s.below key = some raw ∧
      (Subsingleton (Vector V dim) ∨ ∀ index : Nat,
        (missedKeys s.config s.gpu keys)[index]? = some key →
          PathReads memtable files s keys index key raw) := by
  obtain ⟨raw, hraw⟩ :=
    Option.isSome_iff_exists.mp (h.shown_of_notDamaged hdim hkey hfree hgpu hall)
  refine ⟨raw, by rwa [← shown_of_missed hgpu], ?_⟩
  by_contra hnot
  simp only [not_or, not_forall] at hnot
  obtain ⟨hone, index, hindex, hreads⟩ := hnot
  obtain ⟨wrong, bad, hbad, hne⟩ := h.exists_wrong_value hdim hone hindex hreads
  classical
  let env : ReadEnv reserved V dim :=
    { schedule := fun _ batch => .lastly reserved (fun pair => decide (pair = (key, bad))) batch
      garbage := fun _ => wrong
      heap := fun _ => Scalar.ofBytes []
      memtableStatus := memtable
      readStatus := files }
  have hbelow : s.GoesBelow env keys :=
    goesBelow_of_works ⟨fun _ => rfl, rfl⟩ (not_all_found hkey hgpu)
  have hmem : (key, bad) ∈ s.backPairs env keys :=
    mem_backPairs.mpr ⟨index, hindex, (hbad env rfl rfl rfl).symm⟩
  have hlast : (s.readBackTiers env keys).gpu key = some bad :=
    Schedule.run_lastly s.gpu _ hmem hfree fun pair => decide_eq_true_iff
  have hkept := (h.keepsRead_iff hdim (h.step (.multiget env keys)) key).mp
    (hall env rfl rfl rfl rfl).get raw hraw
  rw [DB.step, shown_multiget h.isOpen hbelow (Option.some_ne_none _).symm, shown_of_gpu hlast]
    at hkept
  exact hne hkept.symm

end Needed

end DB

end MlkvPlus
