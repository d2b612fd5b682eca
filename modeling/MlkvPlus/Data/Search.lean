import Mathlib.Tactic.Common

namespace MlkvPlus.Search

-- Binary search above `left` and up to `right`. A probe compares one place with the target, or
-- fails. The outer `none` stands for a loop that does not end within its steps.
def search (probe : Int → Option Ordering) : Nat → Int → Int → Option (Option Int)
  | 0, left, right => if left < right then none else some (some left)
  | fuel + 1, left, right =>
    if left < right then
      let mid := left + (right - left + 1) / 2
      match probe mid with
      | none => some none
      | some .lt => search probe fuel mid right
      | some .gt => search probe fuel left (mid - 1)
      | some .eq => some (some mid)
    else some (some left)

-- The places that the search probes.
def visited (probe : Int → Option Ordering) : Nat → Int → Int → List Int
  | 0, _, _ => []
  | fuel + 1, left, right =>
    if left < right then
      let mid := left + (right - left + 1) / 2
      mid :: match probe mid with
        | some .lt => visited probe fuel mid right
        | some .gt => visited probe fuel left (mid - 1)
        | _ => []
    else []

variable {probe : Int → Option Ordering}

theorem search_isSome (fuel : Nat) (left right : Int) (hfuel : right - left ≤ fuel) :
    (search probe fuel left right).isSome = true := by
  induction fuel generalizing left right with
  | zero =>
    rw [search, if_neg (by omega)]
    rfl
  | succ fuel ih =>
    rw [search]
    split
    case isFalse => rfl
    case isTrue hlt =>
      dsimp only
      split
      · rfl
      · exact ih _ _ (by omega)
      · exact ih _ _ (by omega)
      · rfl

theorem mem_visited {fuel : Nat} {left right place : Int}
    (h : place ∈ visited probe fuel left right) : left < place ∧ place ≤ right := by
  induction fuel generalizing left right with
  | zero => cases h
  | succ fuel ih =>
    rw [visited] at h
    split at h
    case isFalse => cases h
    case isTrue hlt =>
      rcases List.mem_cons.mp h with heq | hrest
      · omega
      · split at hrest
        · have hbounds := ih hrest
          omega
        · have hbounds := ih hrest
          omega
        · cases hrest

theorem search_bounds {fuel : Nat} {left right found : Int} (hle : left ≤ right)
    (h : search probe fuel left right = some (some found)) : left ≤ found ∧ found ≤ right := by
  induction fuel generalizing left right with
  | zero =>
    rw [search] at h
    split at h
    · cases h
    · cases h
      omega
  | succ fuel ih =>
    rw [search] at h
    split at h
    case isFalse =>
      cases h
      omega
    case isTrue hlt =>
      dsimp only at h
      split at h
      · cases h
      · have hbounds := ih (by omega) h
        omega
      · have hbounds := ih (by omega) h
        omega
      · cases h
        omega

-- The place found is not above the target, unless it is the one below all others.
theorem search_spec (fuel : Nat) (left right : Int) (hfuel : right - left ≤ fuel)
    (hle : left ≤ right)
    (hprobe : ∀ place, left < place → place ≤ right → (probe place).isSome = true) :
    ∃ found, search probe fuel left right = some (some found) ∧ left ≤ found ∧ found ≤ right ∧
      (found = left ∨ probe found = some .lt ∨ probe found = some .eq) := by
  induction fuel generalizing left right with
  | zero =>
    refine ⟨left, ?_, Int.le_refl _, hle, Or.inl rfl⟩
    rw [search, if_neg (by omega)]
  | succ fuel ih =>
    rw [search]
    by_cases hlt : left < right
    · rw [if_pos hlt]
      obtain ⟨mid, hmid⟩ : ∃ mid, mid = left + (right - left + 1) / 2 := ⟨_, rfl⟩
      have hlow : left < mid := by omega
      have hhigh : mid ≤ right := by omega
      obtain ⟨order, horder⟩ := Option.isSome_iff_exists.mp (hprobe mid hlow hhigh)
      simp only [← hmid, horder]
      cases order with
      | lt =>
        obtain ⟨found, hsearch, hleft, hright, hfound⟩ := ih mid right (by omega) hhigh
          fun place hplace => hprobe place (by omega)
        refine ⟨found, hsearch, by omega, hright, Or.inr ?_⟩
        rcases hfound with rfl | hfound
        · exact Or.inl horder
        · exact hfound
      | gt =>
        obtain ⟨found, hsearch, hleft, hright, hfound⟩ := ih left (mid - 1) (by omega) (by omega)
          fun place hplace hplace' => hprobe place hplace (by omega)
        exact ⟨found, hsearch, hleft, by omega, hfound⟩
      | eq => exact ⟨mid, rfl, by omega, hhigh, Or.inr (Or.inr horder)⟩
    · rw [if_neg hlt]
      exact ⟨left, rfl, Int.le_refl _, hle, Or.inl rfl⟩

-- The first place of a range that is not before the target: std::lower_bound, which halves the
-- range until nothing is left of it.
def lowerBound (before : Nat → Bool) (first length : Nat) : Nat :=
  if 0 < length then
    if before (first + length / 2) = true then
      lowerBound before (first + length / 2 + 1) (length - length / 2 - 1)
    else lowerBound before first (length / 2)
  else first
termination_by length

theorem lowerBound_spec {before : Nat → Bool} {first length : Nat}
    (hmono : ∀ i j, first ≤ i → i ≤ j → j < first + length → before j = true → before i = true) :
    first ≤ lowerBound before first length ∧
      lowerBound before first length ≤ first + length ∧
      (∀ i, first ≤ i → i < lowerBound before first length → before i = true) ∧
      (lowerBound before first length < first + length →
        before (lowerBound before first length) = false) := by
  fun_induction lowerBound before first length with
  | case1 first length hlength hmid ih =>
    obtain ⟨hlow, hhigh, hbefore, hfound⟩ := ih fun i j hi hij hj => hmono i j (by omega) hij (by omega)
    refine ⟨by omega, by omega, fun i hi hlt => ?_, fun hlt => hfound (by omega)⟩
    rcases Nat.lt_or_ge (first + length / 2) i with hright | hleft
    · exact hbefore i hright hlt
    · exact hmono i _ hi hleft (by omega) hmid
  | case2 first length hlength hmid ih =>
    obtain ⟨hlow, hhigh, hbefore, hfound⟩ := ih fun i j hi hij hj => hmono i j hi hij (by omega)
    refine ⟨hlow, by omega, hbefore, fun _ => ?_⟩
    rcases Nat.lt_or_ge (lowerBound before first (length / 2)) (first + length / 2) with hlt | hge
    · exact hfound hlt
    · rw [show lowerBound before first (length / 2) = first + length / 2 by omega]
      exact Bool.not_eq_true _ ▸ hmid
  | case3 first length hlength =>
    exact ⟨Nat.le_refl _, by omega, fun i hi hlt => absurd hlt (by omega), fun hlt => absurd hlt (by omega)⟩

end MlkvPlus.Search
