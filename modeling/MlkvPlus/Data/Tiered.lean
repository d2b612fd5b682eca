import Mathlib.Data.List.Nodup
import Mathlib.Data.List.Perm.Basic
import Mathlib.Logic.Function.Basic

namespace MlkvPlus.Tiered

variable {K W : Type}

-- The upper tier is read first.
def overlay (upper lower : K → Option W) : K → Option W := fun key => (upper key).or (lower key)

theorem overlay_of_some {upper lower : K → Option W} {key : K} {value : W}
    (h : upper key = some value) : overlay upper lower key = some value := by
  rw [overlay, h, Option.some_or]

theorem overlay_of_none {upper lower : K → Option W} {key : K} (h : upper key = none) :
    overlay upper lower key = lower key := by
  rw [overlay, h, Option.none_or]

theorem value_unique {pairs : List (K × W)} (hnodup : (pairs.map Prod.fst).Nodup)
    (hfirst : (key, first) ∈ pairs) (hsecond : (key, second) ∈ pairs) : first = second := by
  have heq := List.inj_on_of_nodup_map hnodup hfirst hsecond rfl
  exact (Prod.mk.inj heq).2

-- A predicate of every value of a store.
def Each (P : W → Prop) (store : K → Option W) : Prop :=
  ∀ key value, store key = some value → P value

theorem Each.overlay {P : W → Prop} {upper lower : K → Option W} (hupper : Each P upper)
    (hlower : Each P lower) : Each P (overlay upper lower) := by
  intro key value h
  cases hkey : upper key with
  | some other =>
    rw [overlay_of_some hkey] at h
    cases h
    exact hupper key value hkey
  | none =>
    rw [overlay_of_none hkey] at h
    exact hlower key value h

variable [DecidableEq K]

-- Later pairs win.
def writeAll (store : K → Option W) (pairs : List (K × W)) : K → Option W :=
  pairs.foldl (fun store pair => Function.update store pair.1 (some pair.2)) store

@[simp] theorem writeAll_nil (store : K → Option W) : writeAll store [] = store := rfl

@[simp] theorem writeAll_cons (store : K → Option W) (pair : K × W) (rest : List (K × W)) :
    writeAll store (pair :: rest) =
      writeAll (Function.update store pair.1 (some pair.2)) rest := rfl

theorem writeAll_append (store : K → Option W) (first second : List (K × W)) :
    writeAll store (first ++ second) = writeAll (writeAll store first) second :=
  List.foldl_append

theorem writeAll_of_notMem {store : K → Option W} (h : key ∉ pairs.map Prod.fst) :
    writeAll store pairs key = store key := by
  induction pairs generalizing store with
  | nil => rfl
  | cons pair rest ih =>
    rw [List.map_cons, List.mem_cons, not_or] at h
    rw [writeAll_cons, ih h.2, Function.update_of_ne h.1]

theorem writeAll_of_mem (store : K → Option W) {pairs : List (K × W)} (h : key ∈ pairs.map Prod.fst)
    :
    ∃ value, (key, value) ∈ pairs ∧ writeAll store pairs key = some value := by
  induction pairs generalizing store with
  | nil => cases h
  | cons pair rest ih =>
    rw [writeAll_cons]
    by_cases hrest : key ∈ rest.map Prod.fst
    · obtain ⟨value, hmem, hvalue⟩ := ih _ hrest
      exact ⟨value, List.mem_cons_of_mem _ hmem, hvalue⟩
    · obtain rfl : key = pair.1 := (List.mem_cons.mp h).resolve_right hrest
      refine ⟨pair.2, List.mem_cons_self, ?_⟩
      rw [writeAll_of_notMem hrest, Function.update_self]

theorem Each.writeAll {store : K → Option W} (h : Each P store) (hpairs : ∀ pair ∈ pairs, P pair.2) :
    Each P (writeAll store pairs) := by
  intro key value hvalue
  by_cases hkey : key ∈ pairs.map Prod.fst
  · obtain ⟨other, hmem, hother⟩ := writeAll_of_mem store hkey
    rw [hother] at hvalue
    cases hvalue
    exact hpairs _ hmem
  · rw [writeAll_of_notMem hkey] at hvalue
    exact h key value hvalue

theorem writeAll_isSome (store : K → Option W) (pairs : List (K × W)) (key : K) :
    (writeAll store pairs key).isSome = true ↔
      (store key).isSome = true ∨ key ∈ pairs.map Prod.fst := by
  by_cases h : key ∈ pairs.map Prod.fst
  · obtain ⟨value, -, hvalue⟩ := writeAll_of_mem store h
    simp [hvalue, h]
  · rw [writeAll_of_notMem h, or_iff_left h]

theorem writeAll_congr {store other : K → Option W}
    (h : key ∉ pairs.map Prod.fst → store key = other key) :
    writeAll store pairs key = writeAll other pairs key := by
  induction pairs generalizing store other with
  | nil => exact h List.not_mem_nil
  | cons pair rest ih =>
    rw [writeAll_cons, writeAll_cons]
    refine ih fun hrest => ?_
    by_cases hkey : key = pair.1
    · rw [hkey, Function.update_self, Function.update_self]
    · rw [Function.update_of_ne hkey, Function.update_of_ne hkey]
      refine h ?_
      rw [List.map_cons, List.mem_cons, not_or]
      exact ⟨hkey, hrest⟩

theorem writeAll_of_nodup {store : K → Option W} (hnodup : (pairs.map Prod.fst).Nodup)
    (h : (key, value) ∈ pairs) : writeAll store pairs key = some value := by
  obtain ⟨other, hother, hwrite⟩ :=
    writeAll_of_mem store (List.mem_map_of_mem (f := Prod.fst) h)
  rw [hwrite, value_unique hnodup h hother]

theorem writeAll_same {store : K → Option W} (hstore : store key = some value)
    (hpairs : ∀ other, (key, other) ∈ pairs → other = value) :
    writeAll store pairs key = some value := by
  by_cases hkey : key ∈ pairs.map Prod.fst
  · obtain ⟨other, hother, hwrite⟩ := writeAll_of_mem store hkey
    rw [hwrite, hpairs other hother]
  · rw [writeAll_of_notMem hkey, hstore]

theorem writeAll_perm {store : K → Option W} (hnodup : (pairs.map Prod.fst).Nodup)
    (hperm : pairs.Perm others) : writeAll store pairs = writeAll store others := by
  funext key
  by_cases h : key ∈ pairs.map Prod.fst
  · obtain ⟨value, hmem, hvalue⟩ := writeAll_of_mem store h
    have hother := (hperm.map Prod.fst).nodup_iff.mp hnodup
    rw [hvalue, writeAll_of_nodup hother (hperm.mem_iff.mp hmem)]
  · have hother : key ∉ others.map Prod.fst := fun hmem => h ((hperm.map Prod.fst).mem_iff.mpr hmem)
    rw [writeAll_of_notMem h, writeAll_of_notMem hother]

-- What happens inside one batch of inserts: entries come in, and entries are dropped.
inductive Event (K W : Type) where
  | insert (key : K) (value : W)
  | drop (key : K)
  deriving DecidableEq, Repr

def inserts : List (Event K W) → List (K × W)
  | [] => []
  | .insert key value :: rest => (key, value) :: inserts rest
  | .drop _ :: rest => inserts rest

def drops : List (Event K W) → List K
  | [] => []
  | .insert _ _ :: rest => drops rest
  | .drop key :: rest => key :: drops rest

def insertThenDrop (pairs : List (K × W)) (dropped : List K) : List (Event K W) :=
  pairs.map (fun pair => .insert pair.1 pair.2) ++ dropped.map .drop

-- The table after the events, and what was dropped, in the order of the drops and each entry
-- with its value of then. A key that is dropped twice stands there twice, the newer value last.
def run : (K → Option W) → List (Event K W) → (K → Option W) × List (K × W)
  | table, [] => (table, [])
  | table, .insert key value :: rest => run (Function.update table key (some value)) rest
  | table, .drop key :: rest =>
    match table key with
    | none => run table rest
    | some value =>
      let (table, dropped) := run (Function.update table key none) rest
      (table, (key, value) :: dropped)

omit [DecidableEq K] in
theorem inserts_insertThenDrop (pairs : List (K × W)) (dropped : List K) :
    inserts (insertThenDrop pairs dropped) = pairs := by
  induction pairs with
  | nil =>
    induction dropped with
    | nil => rfl
    | cons key rest ih => exact ih
  | cons pair rest ih => exact congrArg (pair :: ·) ih

omit [DecidableEq K] in
theorem drops_insertThenDrop (pairs : List (K × W)) (dropped : List K) :
    drops (insertThenDrop pairs dropped) = dropped := by
  induction pairs with
  | nil =>
    induction dropped with
    | nil => rfl
    | cons key rest ih => exact congrArg (key :: ·) ih
  | cons pair rest ih => exact ih

omit [DecidableEq K] in
theorem eq_nil_of_inserts_drops {events : List (Event K W)} (hinserts : inserts events = [])
    (hdrops : drops events = []) : events = [] := by
  match events with
  | [] => rfl
  | .insert key value :: rest => exact nomatch hinserts
  | .drop key :: rest => exact nomatch hdrops

theorem run_insertThenDrop_nil (table : K → Option W) (pairs : List (K × W)) :
    run table (insertThenDrop pairs []) = (writeAll table pairs, []) := by
  induction pairs generalizing table with
  | nil => rfl
  | cons pair rest ih => exact ih _

theorem run_insertThenDrop_one (table : K → Option W) (pairs : List (K × W)) (key : K) :
    (run table (insertThenDrop pairs [key])).1 = Function.update (writeAll table pairs) key none := by
  induction pairs generalizing table with
  | nil =>
    cases h : table key with
    | none =>
      rw [writeAll_nil, ← h, Function.update_eq_self]
      simp [insertThenDrop, run, h]
    | some value => simp [insertThenDrop, run, h]
  | cons pair rest ih => exact ih _

theorem dropped_insertThenDrop_one (table : K → Option W) (pairs : List (K × W)) (key : K) :
    (run table (insertThenDrop pairs [key])).2 =
      ((writeAll table pairs key).map fun value => (key, value)).toList := by
  induction pairs generalizing table with
  | nil =>
    cases h : table key with
    | none => simp [insertThenDrop, run, h]
    | some value => simp [insertThenDrop, run, h]
  | cons pair rest ih => exact ih _

theorem eq_some_of_update_none {table : K → Option W}
    (h : Function.update table other none key = some value) : table key = some value := by
  by_cases heq : key = other
  · rw [heq, Function.update_self] at h
    cases h
  · rwa [Function.update_of_ne heq] at h

theorem run_origin {table : K → Option W}
    (h : (run table events).1 key = some value ∨ (key, value) ∈ (run table events).2) :
    table key = some value ∨ (key, value) ∈ inserts events := by
  induction events generalizing table with
  | nil => exact Or.inl (h.resolve_right List.not_mem_nil)
  | cons event rest ih =>
    cases event with
    | insert other inserted =>
      rcases ih h with hupdate | hmem
      · by_cases heq : key = other
        · rw [heq, Function.update_self] at hupdate
          cases hupdate
          exact Or.inr (heq ▸ List.mem_cons_self)
        · rw [Function.update_of_ne heq] at hupdate
          exact Or.inl hupdate
      · exact Or.inr (List.mem_cons_of_mem _ hmem)
    | drop other =>
      rw [run] at h
      split at h
      · exact ih h
      · rename_i current hcurrent
        rcases h with hafter | hdropped
        · exact (ih (Or.inl hafter)).imp_left eq_some_of_update_none
        · rcases List.mem_cons.mp hdropped with heq | hrest
          · cases heq
            exact Or.inl hcurrent
          · exact (ih (Or.inr hrest)).imp_left eq_some_of_update_none

theorem mem_dropped {table : K → Option W}
    (hheld : (table key).isSome = true ∨ key ∈ (inserts events).map Prod.fst)
    (hgone : (run table events).1 key = none) : key ∈ (run table events).2.map Prod.fst := by
  induction events generalizing table with
  | nil =>
    rcases hheld with hsome | hmem
    · rw [show table key = none from hgone] at hsome
      cases hsome
    · cases hmem
  | cons event rest ih =>
    cases event with
    | insert other inserted =>
      refine ih ?_ hgone
      by_cases heq : key = other
      · rw [heq, Function.update_self]
        exact Or.inl rfl
      · rw [Function.update_of_ne heq]
        exact hheld.imp_right fun hmem => (List.mem_cons.mp hmem).resolve_left heq
    | drop other =>
      rw [run] at hgone ⊢
      split at hgone
      · exact ih hheld hgone
      · by_cases heq : key = other
        · exact heq ▸ List.mem_cons_self
        · refine List.mem_cons_of_mem _ (ih ?_ hgone)
          rwa [Function.update_of_ne heq]

theorem length_dropped_le (table : K → Option W) (events : List (Event K W)) :
    (run table events).2.length ≤ (drops events).length := by
  induction events generalizing table with
  | nil => exact Nat.le_refl _
  | cons event rest ih =>
    cases event with
    | insert key value => exact ih _
    | drop key =>
      rw [run, drops]
      split
      · exact Nat.le_succ_of_le (ih _)
      · exact Nat.succ_le_succ (ih _)

theorem isSome_of_run {table : K → Option W} (h : ((run table events).1 key).isSome = true) :
    (table key).isSome = true ∨ key ∈ (inserts events).map Prod.fst := by
  obtain ⟨value, hvalue⟩ := Option.isSome_iff_exists.mp h
  rcases run_origin (Or.inl hvalue) with htable | hmem
  · exact Or.inl (Option.isSome_iff_exists.mpr ⟨value, htable⟩)
  · exact Or.inr (List.mem_map_of_mem hmem)

theorem overlay_update (upper lower : K → Option W) (key : K) (value : W) :
    overlay (Function.update upper key (some value)) lower =
      Function.update (overlay upper lower) key (some value) := by
  funext other
  by_cases h : other = key
  · subst h
    simp [overlay]
  · simp [overlay, h]

theorem overlay_writeAll (upper lower : K → Option W) (pairs : List (K × W)) :
    overlay (writeAll upper pairs) lower = writeAll (overlay upper lower) pairs := by
  induction pairs generalizing upper with
  | nil => rfl
  | cons pair rest ih => rw [writeAll_cons, writeAll_cons, ih, overlay_update]

theorem writeAll_rename {L : Type} [DecidableEq L] (rename : K → L)
    (hinjective : Function.Injective rename) (store : L → Option W) (pairs : List (K × W)) :
    writeAll store (pairs.map fun pair => (rename pair.1, pair.2)) ∘ rename =
      writeAll (store ∘ rename) pairs := by
  induction pairs generalizing store with
  | nil => rfl
  | cons pair rest ih =>
    rw [List.map_cons, writeAll_cons, writeAll_cons, ih,
      Function.update_comp_eq_of_injective store hinjective]

section Encoded

-- The lower tier keeps the values encoded.
variable {U : Type} (encode : W → U)

def encodeAll (pairs : List (K × W)) : List (K × U) :=
  pairs.map fun pair => (pair.1, encode pair.2)

omit [DecidableEq K] in
@[simp] theorem encodeAll_cons (pair : K × W) (rest : List (K × W)) :
    encodeAll encode (pair :: rest) = (pair.1, encode pair.2) :: encodeAll encode rest := rfl

omit [DecidableEq K] in
@[simp] theorem map_fst_encodeAll (pairs : List (K × W)) :
    (encodeAll encode pairs).map Prod.fst = pairs.map Prod.fst := by
  rw [encodeAll, List.map_map]
  rfl

omit [DecidableEq K] in
theorem mem_encodeAll {pairs : List (K × W)} {key : K} {raw : U} :
    (key, raw) ∈ encodeAll encode pairs ↔ ∃ value, (key, value) ∈ pairs ∧ encode value = raw := by
  simp only [encodeAll, List.mem_map, Prod.mk.injEq]
  constructor
  · rintro ⟨pair, hpair, rfl, hraw⟩
    exact ⟨pair.2, hpair, hraw⟩
  · rintro ⟨value, hmem, hraw⟩
    exact ⟨(key, value), hmem, rfl, hraw⟩

theorem writeAll_encodeAll_same {store : K → Option U} (hstore : store key = some (encode value))
    (hpairs : ∀ other, (key, other) ∈ pairs → other = value) :
    writeAll store (encodeAll encode pairs) key = some (encode value) := by
  refine writeAll_same hstore fun raw hraw => ?_
  obtain ⟨other, hother, rfl⟩ := (mem_encodeAll encode).mp hraw
  rw [hpairs other hother]

def encoded (table : K → Option W) : K → Option U := fun key => (table key).map encode

theorem encoded_update (table : K → Option W) (key : K) (value : Option W) :
    encoded encode (Function.update table key value) =
      Function.update (encoded encode table) key (value.map encode) := by
  funext other
  by_cases h : other = key
  · subst h
    simp [encoded]
  · simp [encoded, h]

theorem writeAll_encodeAll (store : K → Option W) (pairs : List (K × W)) :
    writeAll (encoded encode store) (encodeAll encode pairs) =
      encoded encode (writeAll store pairs) := by
  induction pairs generalizing store with
  | nil => rfl
  | cons pair rest ih =>
    rw [encodeAll_cons, writeAll_cons, writeAll_cons, ← ih, encoded_update]
    rfl

theorem overlay_drop (upper : K → Option W) (lower : K → Option U) (h : upper key = some value) :
    overlay (encoded encode (Function.update upper key none))
        (Function.update lower key (some (encode value))) =
      overlay (encoded encode upper) lower := by
  funext other
  by_cases heq : other = key
  · subst heq
    simp [overlay, encoded, h]
  · simp [overlay, encoded, heq]

-- Inserting into the upper tier and writing what it drops to the lower one is, for a reader
-- of both, writing the inserted pairs.
theorem overlay_run (upper : K → Option W) (lower : K → Option U) (events : List (Event K W)) :
    overlay (encoded encode (run upper events).1)
        (writeAll lower (encodeAll encode (run upper events).2)) =
      writeAll (overlay (encoded encode upper) lower) (encodeAll encode (inserts events)) := by
  induction events generalizing upper lower with
  | nil => rfl
  | cons event rest ih =>
    cases event with
    | insert key value =>
      rw [run, ih, inserts, encoded_update, encodeAll_cons, writeAll_cons, Option.map_some,
        overlay_update]
    | drop key =>
      cases h : upper key with
      | none => simp only [run, h, inserts, ih]
      | some value =>
        simp only [run, h, inserts, encodeAll_cons, writeAll_cons]
        rw [ih, overlay_drop encode upper lower h]

end Encoded

end MlkvPlus.Tiered
