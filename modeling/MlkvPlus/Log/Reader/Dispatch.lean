import MlkvPlus.Log.Reader

namespace MlkvPlus.Log.Reader

-- The reader stands where it stood. Its reports may differ, and what it knows of the compression.
structure SamePlace (r r' : Reader) : Prop where
  buffer : r'.buffer = r.buffer
  file : r'.file = r.file
  eof : r'.eof = r.eof
  recycled : r'.recycled = r.recycled
  firstRecordRead : r'.firstRecordRead = r.firstRecordRead

theorem SamePlace.refl (r : Reader) : SamePlace r r := ⟨rfl, rfl, rfl, rfl, rfl⟩

theorem SamePlace.report (h : SamePlace r r') (bytes : Nat) (reason : String) :
    SamePlace r (r'.reportCorruption bytes reason) :=
  ⟨h.buffer, h.file, h.eof, h.recycled, h.firstRecordRead⟩

theorem SamePlace.ite (condition : Prop) [Decidable condition] (h : SamePlace r r₁)
    (h' : SamePlace r r₂) : SamePlace r (if condition then r₁ else r₂) := by
  split
  · exact h
  · exact h'

theorem SamePlace.reports (h : SamePlace r r') (bytes : Nat) (reasons : List String) :
    SamePlace r (r'.reportCorruptions bytes reasons) := by
  induction reasons generalizing r' with
  | nil => exact h
  | cons reason reasons ih => exact ih (h.report bytes reason)

theorem samePlace_setCompression (env : ReaderEnv) (fragment : Bytes) (r : Reader) :
    SamePlace r (r.setCompression env fragment) := by
  have h := SamePlace.ite (r.compressionTypeRecordRead = true)
    ((SamePlace.refl r).report fragment.length "read multiple SetCompressionType records") (.refl r)
  have h' := SamePlace.ite ((if r.compressionTypeRecordRead = true then r.reportCorruption
    fragment.length "read multiple SetCompressionType records" else r).firstRecordRead = true)
    (h.report fragment.length "SetCompressionType not the first record") h
  unfold setCompression
  dsimp only
  split
  · exact ⟨h'.buffer, h'.file, h'.eof, h'.recycled, h'.firstRecordRead⟩
  · exact h'.report _ _

-- A pass that ends a record has met a full fragment, or the last one of a record under way.
structure Ends (inFragmentedRecord : Bool) (scratch : Bytes) (physical : Physical) (r : Reader)
    (data : Bytes) (r' : Reader) : Prop where
  place : SamePlace { r with firstRecordRead := true } r'
  record : isFull physical.code = true ∧ data = physical.fragment ∨
    isLast physical.code = true ∧ inFragmentedRecord = true ∧ data = scratch ++ physical.fragment

-- A pass behind which a record is under way has met its first or a middle fragment, or one
-- that carries no data.
structure GoesOn (inFragmentedRecord : Bool) (scratch : Bytes) (physical : Physical) (r : Reader)
    (inFragmentedRecord' : Bool) (scratch' : Bytes) (r' : Reader) : Prop where
  place : SamePlace r r'
  record : inFragmentedRecord' = true →
    isFirst physical.code = true ∧ scratch' = physical.fragment ∨
    isMiddle physical.code = true ∧ inFragmentedRecord = true ∧
      scratch' = scratch ++ physical.fragment ∨
    inFragmentedRecord = true ∧ scratch' = []

def Pass.Follows (inFragmentedRecord : Bool) (scratch : Bytes) (physical : Physical) (r : Reader) :
    Pass → Prop
  | .record data r' => Ends inFragmentedRecord scratch physical r data r'
  | .stop _ => True
  | .next inFragmentedRecord' scratch' r' =>
    GoesOn inFragmentedRecord scratch physical r inFragmentedRecord' scratch' r'

section Follows

variable {inFragmentedRecord : Bool} {scratch : Bytes} {physical : Physical} {r r' : Reader}

theorem follows_ite [Decidable condition] {pass pass' : Pass}
    (h : condition → pass.Follows inFragmentedRecord scratch physical r)
    (h' : ¬condition → pass'.Follows inFragmentedRecord scratch physical r) :
    (if condition then pass else pass').Follows inFragmentedRecord scratch physical r := by
  split
  case isTrue hc => exact h hc
  case isFalse hc => exact h' hc

theorem follows_dropped (h : SamePlace r r') (scratch' : Bytes) :
    (Pass.next false scratch' r').Follows inFragmentedRecord scratch physical r :=
  ⟨h, fun hfragmented => absurd hfragmented (by decide)⟩

theorem follows_meta (h : SamePlace r r') :
    (Pass.next inFragmentedRecord [] r').Follows inFragmentedRecord scratch physical r :=
  ⟨h, fun hfragmented => .inr (.inr ⟨hfragmented, rfl⟩)⟩

theorem follows_interrupt (h : SamePlace r r') :
    (interrupt inFragmentedRecord scratch r').Follows inFragmentedRecord scratch physical r :=
  follows_ite (fun _ => follows_dropped (h.report _ _) _) fun _ => follows_dropped h _

theorem follows_atEof (mode : WALRecoveryMode) :
    (atEof mode inFragmentedRecord scratch r').Follows inFragmentedRecord scratch physical r :=
  follows_ite (fun _ => trivial) fun _ => trivial

end Follows

-- Everything the switch of ReadRecord can do.
theorem dispatch_follows (env : ReaderEnv) (mode : WALRecoveryMode) (inFragmentedRecord : Bool)
    (scratch : Bytes) (physical : Physical) (r : Reader) :
    (dispatch env mode inFragmentedRecord scratch physical r).Follows inFragmentedRecord scratch
      physical r := by
  have hsame := SamePlace.refl r
  have hcut (reason : String) := SamePlace.ite
    ((inFragmentedRecord && !scratch.isEmpty) = true) (hsame.report scratch.length reason) hsame
  unfold dispatch
  refine follows_ite (fun hfull => ?_) fun _ => follows_ite (fun hfirst => ?_) fun _ =>
    follows_ite (fun hmiddle => ?_) fun _ => follows_ite (fun hlast => ?_) fun _ =>
    follows_ite (fun _ => follows_meta (samePlace_setCompression env _ r)) fun _ =>
    follows_ite (fun _ => follows_meta (hsame.reports _ _)) fun _ =>
    follows_ite (fun _ => follows_meta ((hcut _).reports _ _)) fun _ =>
    follows_ite (fun _ => follows_atEof mode) fun _ => follows_ite (fun _ => follows_atEof mode)
    fun _ => follows_ite (fun _ => ?_) fun _ =>
    follows_ite (fun _ => follows_interrupt hsame) fun _ => follows_ite (fun _ => ?_) fun _ =>
    follows_ite (fun _ => ?_) fun _ =>
    follows_ite (fun _ => follows_dropped (hsame.report _ _) _) fun _ => follows_dropped hsame _
  case refine_1 =>
    have hplace := hcut "partial record without end(1)"
    exact ⟨⟨hplace.buffer, hplace.file, hplace.eof, hplace.recycled, rfl⟩, .inl ⟨hfull, rfl⟩⟩
  case refine_2 => exact ⟨hcut _, fun _ => .inl ⟨hfirst, rfl⟩⟩
  case refine_3 =>
    refine follows_ite (fun _ => follows_dropped (hsame.report _ _) _) fun hfragmented => ?_
    exact ⟨hsame, fun _ => .inr (.inl ⟨hmiddle, Bool.not_eq_false _ |>.mp hfragmented, rfl⟩)⟩
  case refine_4 =>
    refine follows_ite (fun _ => follows_dropped (hsame.report _ _) _) fun hfragmented => ?_
    exact ⟨.refl _, .inr ⟨hlast, Bool.not_eq_false _ |>.mp hfragmented, rfl⟩⟩
  case refine_5 =>
    exact follows_ite (fun _ => follows_ite (fun _ => trivial) fun _ => trivial) fun _ =>
      follows_ite (fun _ => trivial) fun _ => trivial
  case refine_6 => exact follows_ite (fun _ => trivial) fun _ => trivial
  case refine_7 =>
    exact follows_ite (fun _ => trivial) fun _ =>
      follows_ite (fun _ => follows_interrupt (hsame.report _ _)) fun _ =>
      follows_interrupt (hsame.report _ _)

-- One pass of the loop of ReadRecord that ends with a record.
theorem exists_fuel (h : readRecordLoop env mode fuel inFragmentedRecord scratch r = some result) :
    ∃ n, fuel = n + 1 := by
  cases fuel with
  | zero => cases h
  | succ fuel => exact ⟨fuel, rfl⟩

theorem readRecordLoop_cases
    (h : readRecordLoop env mode (fuel + 1) inFragmentedRecord scratch r = some (some data, r')) :
    ∃ physical r₁, r.readPhysicalRecord env = (physical, r₁) ∧
      (Ends inFragmentedRecord scratch physical r₁ data r' ∨
        ∃ inFragmentedRecord' scratch' r₂,
          GoesOn inFragmentedRecord scratch physical r₁ inFragmentedRecord' scratch' r₂ ∧
          readRecordLoop env mode fuel inFragmentedRecord' scratch' r₂ = some (some data, r')) := by
  obtain ⟨physical, r₁, hread⟩ : ∃ physical r₁, r.readPhysicalRecord env = (physical, r₁) :=
    ⟨_, _, rfl⟩
  have hfollows := dispatch_follows env mode inFragmentedRecord scratch physical r₁
  refine ⟨physical, r₁, hread, ?_⟩
  rw [readRecordLoop, hread] at h
  dsimp only at h
  generalize dispatch env mode inFragmentedRecord scratch physical r₁ = pass at h hfollows
  cases pass with
  | record data' r₂ =>
    cases h
    exact .inl hfollows
  | stop r₂ => cases h
  | next inFragmentedRecord' scratch' r₂ => exact .inr ⟨_, _, _, hfollows, h⟩

theorem firstRecordRead_of_readRecordLoop
    (h : readRecordLoop env mode fuel inFragmentedRecord scratch r = some (some data, r')) :
    r'.firstRecordRead = true := by
  induction fuel generalizing inFragmentedRecord scratch r with
  | zero => cases h
  | succ fuel ih =>
    obtain ⟨physical, r₁, -, hends | ⟨_, _, _, -, hnext⟩⟩ := readRecordLoop_cases h
    · exact hends.place.firstRecordRead
    · exact ih hnext

end MlkvPlus.Log.Reader
