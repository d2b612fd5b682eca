import Mathlib.Order.Defs.Unbundled
import MlkvPlus.Data.Framing

namespace MlkvPlus.Framing

-- A loop that puts a record into a stream, a fragment in each pass. A pass is told whether it is
-- the first and gets what is left of the record; `E` is what it meets outside. The loop goes on
-- while its passes end with `ok` and leave something.
structure Emitter (E S O α : Type) where
  pass : E → Bool → S → List α → O × S × List α
  ok : O
  fuel : S → List α → Nat
  fuel_lt : ∀ {env isBegin s left s' left'}, pass env isBegin s left = (ok, s', left') →
    0 < left'.length → fuel s' left' < fuel s left

-- What the state of a writer says of its stream.
structure Stream (S α : Type) where
  layout : S → Layout α
  offset : S → Nat
  contents : S → List α

-- `s'` is `s` after `data` was appended to its stream. `Keeps` is what the writer keeps besides.
structure Stream.Appended {S α : Type} (stream : Stream S α) (Keeps : S → S → Prop) (s : S)
    (data : List α) (s' : S) : Prop where
  keeps : Keeps s s'
  layout : stream.layout s' = stream.layout s
  contents : stream.contents s' = stream.contents s ++ data

variable {E S O α : Type} {stream : Stream S α} {Keeps : S → S → Prop} {s s' s'' : S}

theorem Stream.Appended.nil (hkeeps : Keeps s s') (hlayout : stream.layout s' = stream.layout s)
    (hcontents : stream.contents s' = stream.contents s) : stream.Appended Keeps s [] s' :=
  ⟨hkeeps, hlayout, by rw [hcontents, List.append_nil]⟩

theorem Stream.Appended.trans [IsTrans S Keeps] (h : stream.Appended Keeps s data s')
    (h' : stream.Appended Keeps s' data' s'') :
    stream.Appended Keeps s (data ++ data') s'' where
  keeps := IsTrans.trans _ _ _ h.keeps h'.keeps
  layout := h'.layout.trans h.layout
  contents := by rw [h'.contents, h.contents, List.append_assoc]

namespace Emitter

variable [DecidableEq O] {c : Emitter E S O α}

def run (c : Emitter E S O α) (env : Nat → E) (isBegin : Bool) (s : S) (left : List α) : O × S :=
  match hpass : c.pass (env 0) isBegin s left with
  | (outcome, s', left') =>
    if hmore : outcome = c.ok ∧ 0 < left'.length then
      c.run (fun index => env (index + 1)) false s' left'
    else (outcome, s')
termination_by c.fuel s left
decreasing_by exact c.fuel_lt (hmore.1 ▸ hpass) hmore.2

variable {env : Nat → E} {isBegin : Bool} {left left' : List α} {outcome : O}

theorem run_of_more (hpass : c.pass (env 0) isBegin s left = (c.ok, s', left'))
    (hleft : 0 < left'.length) :
    c.run env isBegin s left = c.run (fun index => env (index + 1)) false s' left' := by
  rw [run]
  split
  rename_i hresult
  cases hpass.symm.trans hresult
  rw [dif_pos ⟨rfl, hleft⟩]

theorem run_of_done (hpass : c.pass (env 0) isBegin s left = (outcome, s', left'))
    (hdone : outcome = c.ok → left' = []) : c.run env isBegin s left = (outcome, s') := by
  rw [run]
  split
  rename_i hresult
  cases hpass.symm.trans hresult
  rw [dif_neg]
  rintro ⟨hok, hleft⟩
  rw [hdone hok] at hleft
  exact absurd hleft (Nat.lt_irrefl 0)

theorem pass_of_run (hrun : c.run env isBegin s left = (c.ok, s'')) :
    ∃ s' left', c.pass (env 0) isBegin s left = (c.ok, s', left') ∧
      if 0 < left'.length then c.run (fun index => env (index + 1)) false s' left' = (c.ok, s'')
      else s'' = s' := by
  rw [run] at hrun
  split at hrun
  rename_i outcome s' left' hpass
  split at hrun
  case isTrue hmore => exact ⟨s', left', hmore.1 ▸ hpass, by rw [if_pos hmore.2]; exact hrun⟩
  case isFalse hmore =>
      cases hrun
      exact ⟨s'', left', hpass, by rw [if_neg fun hleft => hmore ⟨rfl, hleft⟩]⟩

-- The passes lay the fragments of the format: one that ends with `ok` has appended what fits of
-- the record behind the offset.
structure Lays (c : Emitter E S O α) (stream : Stream S α) (Clean : E → Prop)
    (Keeps : S → S → Prop) (Good : S → Prop) : Prop where
  pass : ∀ {env isBegin s left s' left'}, Clean env → Good s →
    c.pass env isBegin s left = (c.ok, s', left') →
    Good s' ∧
    stream.Appended Keeps s ((stream.layout s).encode
      ⟨(stream.layout s).padding (stream.offset s),
        .of isBegin (decide (left.length ≤ (stream.layout s).room (stream.offset s))),
        left.take ((stream.layout s).room (stream.offset s))⟩) s' ∧
    left' = left.drop ((stream.layout s).room (stream.offset s)) ∧
    stream.offset s' = (stream.layout s).start (stream.offset s) + (stream.layout s).headerSize +
      min left.length ((stream.layout s).room (stream.offset s))

-- The record of `data` was appended to the stream.
structure Recorded (stream : Stream S α) (Keeps : S → S → Prop) (Good : S → Prop) (isBegin : Bool)
    (s : S) (data : List α) (s' : S) : Prop where
  good : Good s'
  appended :
    stream.Appended Keeps s ((stream.layout s).record (stream.offset s) isBegin data) s'
  offset : stream.offset s' = (stream.layout s).after (stream.offset s) data.length

section Lays

variable [IsTrans S Keeps] {Clean : E → Prop} {Good : S → Prop}

-- The loop refines the framing of the stream: it appends the fragments of one record.
theorem Lays.run (h : c.Lays stream Clean Keeps Good) (henv : ∀ index, Clean (env index))
    (hgood : Good s) (hrun : c.run env isBegin s left = (c.ok, s')) :
    Recorded stream Keeps Good isBegin s left s' := by
  generalize hoffset : stream.offset s = offset
  generalize hlayout : stream.layout s = l
  induction offset, isBegin, left using l.pieces_induction generalizing s env with
  | last offset isBegin left hle =>
    subst hoffset hlayout
    obtain ⟨s₁, left₁, hpass, hnext⟩ := pass_of_run hrun
    obtain ⟨hgood₁, happended, hleft, hafter⟩ := h.pass (henv 0) hgood hpass
    rw [List.drop_eq_nil_of_le hle] at hleft
    rw [hleft, if_neg (by simp)] at hnext
    rw [List.take_of_length_le hle, decide_eq_true hle] at happended
    rw [Nat.min_eq_left hle] at hafter
    subst hnext
    refine ⟨hgood₁, ?_, ?_⟩
    · rw [(stream.layout s).record_of_le _ isBegin left hle]
      exact happended
    · rw [(stream.layout s).after_of_le _ left.length hle]
      exact hafter
  | more offset isBegin left hlt ih =>
    subst hoffset hlayout
    obtain ⟨s₁, left₁, hpass, hnext⟩ := pass_of_run hrun
    obtain ⟨hgood₁, happended, hleft, hafter⟩ := h.pass (henv 0) hgood hpass
    have hmore : 0 < left₁.length := by
      rw [hleft, List.length_drop]
      omega
    rw [if_pos hmore, hleft] at hnext
    rw [Nat.min_eq_right (Nat.le_of_lt hlt), Format.start_add_room] at hafter
    rw [decide_eq_false (Nat.not_le.mpr hlt)] at happended
    have hrest := ih (fun index => henv (index + 1)) hgood₁ hnext hafter happended.layout
    have hrecord := hrest.appended
    have hoffset := hrest.offset
    rw [happended.layout, hafter] at hrecord hoffset
    refine ⟨hrest.good, ?_, ?_⟩
    · rw [(stream.layout s).record_of_lt _ isBegin left hlt]
      exact happended.trans hrecord
    · rw [(stream.layout s).after_of_lt _ left.length hlt, hoffset, List.length_drop]

-- Where every pass ends with `ok`, so does the loop. A state `Accepts` so many more bytes.
theorem Lays.run_total (h : c.Lays stream Clean Keeps Good) (Accepts : S → Nat → Prop)
    (henv : ∀ index, Clean (env index))
    (hpass : ∀ index isBegin s left extra, Good s →
      Accepts s ((stream.layout s).padding (stream.offset s) + (stream.layout s).headerSize +
        min left.length ((stream.layout s).room (stream.offset s)) + extra) →
      ∃ s' left', c.pass (env index) isBegin s left = (c.ok, s', left') ∧ Accepts s' extra)
    (isBegin : Bool) (hgood : Good s) (left : List α) (extra : Nat)
    (haccepts : Accepts s ((stream.layout s).size (stream.offset s) left.length + extra)) :
    ∃ s', c.run env isBegin s left = (c.ok, s') ∧ Accepts s' extra ∧
      Recorded stream Keeps Good isBegin s left s' := by
  obtain ⟨s', hrun, haccepts'⟩ : ∃ s', c.run env isBegin s left = (c.ok, s') ∧ Accepts s' extra := by
    generalize hoffset : stream.offset s = offset at haccepts
    generalize hlayout : stream.layout s = l at haccepts
    induction offset, isBegin, left using l.pieces_induction generalizing s env with
    | last offset isBegin left hle =>
      subst hoffset hlayout
      rw [(stream.layout s).size_of_le _ left.length hle] at haccepts
      rw [← Nat.min_eq_left hle] at haccepts
      obtain ⟨s₁, left₁, hfirst, haccepts₁⟩ := hpass 0 isBegin s left extra hgood haccepts
      refine ⟨s₁, run_of_done hfirst fun _ => ?_, haccepts₁⟩
      rw [(h.pass (henv 0) hgood hfirst).2.2.1, List.drop_eq_nil_of_le hle]
    | more offset isBegin left hlt ih =>
      subst hoffset hlayout
      rw [(stream.layout s).size_of_lt _ left.length hlt, Nat.add_assoc] at haccepts
      rw [← Nat.min_eq_right (Nat.le_of_lt hlt)] at haccepts
      obtain ⟨s₁, left₁, hfirst, haccepts₁⟩ := hpass 0 isBegin s left _ hgood haccepts
      obtain ⟨hgood₁, happended, hleft, hafter⟩ := h.pass (henv 0) hgood hfirst
      have hmore : 0 < left₁.length := by
        rw [hleft, List.length_drop]
        omega
      rw [Nat.min_eq_right (Nat.le_of_lt hlt), Format.start_add_room] at hafter
      rw [Nat.min_eq_right (Nat.le_of_lt hlt), ← List.length_drop] at haccepts₁
      obtain ⟨s', hrun, haccepts'⟩ := ih (fun index => henv (index + 1))
        (fun index => hpass (index + 1)) hgood₁ hafter happended.layout haccepts₁
      rw [← hleft] at hrun
      exact ⟨s', (run_of_more hfirst hmore).trans hrun, haccepts'⟩
  exact ⟨s', hrun, haccepts', h.run henv hgood hrun⟩

end Lays

end Emitter

-- Records one after the other, as long as each ends with `ok`.
def addAll [DecidableEq O] (ok : O) (add : S → List α → O × S) : S → List (List α) → O × S
  | s, [] => (ok, s)
  | s, data :: rest =>
    if (add s data).1 = ok then addAll ok add (add s data).2 rest else add s data

section AddAll

variable [DecidableEq O] {ok : O} {add : S → List α → O × S}

theorem addAll_cons (rest : List (List α)) (h : add s data = (outcome, s')) :
    addAll ok add s (data :: rest) = if outcome = ok then addAll ok add s' rest
      else (outcome, s') := by
  rw [addAll, h]

theorem addAll_concat (data : List α) (hall : addAll ok add s records = (ok, s')) :
    addAll ok add s (records ++ [data]) = add s' data := by
  induction records generalizing s with
  | nil =>
    cases hall
    simp only [List.nil_append, addAll]
    split
    case isTrue hok => exact Prod.ext hok.symm rfl
    case isFalse => rfl
  | cons first rest ih =>
    rw [addAll] at hall
    rw [List.cons_append, addAll]
    split at hall
    case isTrue hok => rw [if_pos hok, ih hall]
    case isFalse hfailed => exact absurd (congrArg Prod.fst hall) hfailed

variable [IsTrans S Keeps] {Good : S → Prop} (hrefl : ∀ s, Good s → Keeps s s)
include hrefl

theorem addAll_appended
    (hadd : ∀ {s data s'}, Good s → add s data = (ok, s') →
      Emitter.Recorded stream Keeps Good true s data s')
    (records : List (List α)) (hgood : Good s) (hall : addAll ok add s records = (ok, s')) :
    Good s' ∧ stream.Appended Keeps s ((stream.layout s).log (stream.offset s) records) s' := by
  induction records generalizing s with
  | nil =>
    cases hall
    exact ⟨hgood, .nil (hrefl _ hgood) rfl rfl⟩
  | cons data rest ih =>
    cases hfirst : add s data with
    | mk outcome s₁ =>
      rw [addAll_cons rest hfirst] at hall
      split at hall
      case isTrue hok =>
        subst hok
        have hrecorded := hadd hgood hfirst
        obtain ⟨hgood', hrest⟩ := ih hrecorded.good hall
        rw [hrecorded.appended.layout, hrecorded.offset] at hrest
        exact ⟨hgood', hrecorded.appended.trans hrest⟩
      case isFalse hfailed => exact absurd (congrArg Prod.fst hall) hfailed

theorem addAll_total (Accepts : S → Nat → Prop)
    (hadd : ∀ s data extra, Good s →
      Accepts s ((stream.layout s).size (stream.offset s) data.length + extra) →
      ∃ s', add s data = (ok, s') ∧ Accepts s' extra ∧
        Emitter.Recorded stream Keeps Good true s data s')
    (records : List (List α)) (hgood : Good s)
    (haccepts : Accepts s ((stream.layout s).total (stream.offset s) (records.map List.length))) :
    ∃ s', addAll ok add s records = (ok, s') ∧ Good s' ∧
      stream.Appended Keeps s ((stream.layout s).log (stream.offset s) records) s' := by
  induction records generalizing s with
  | nil => exact ⟨s, rfl, hgood, .nil (hrefl s hgood) rfl rfl⟩
  | cons data rest ih =>
    rw [List.map_cons, Format.total, Format.sizes, List.sum_cons] at haccepts
    obtain ⟨s₁, hfirst, haccepts₁, hone⟩ := hadd s data _ hgood haccepts
    have hlog := ih hone.good
    rw [hone.appended.layout, hone.offset] at hlog
    obtain ⟨s', hall, hgood', hrest⟩ := hlog haccepts₁
    rw [addAll_cons rest hfirst, if_pos rfl]
    exact ⟨s', hall, hgood', hone.appended.trans hrest⟩

end AddAll

end MlkvPlus.Framing
