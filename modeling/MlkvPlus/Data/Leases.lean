import Mathlib.Data.PEquiv
import Mathlib.Logic.Function.Basic

namespace MlkvPlus.Leases

variable {ι ρ : Type} [DecidableEq ι] [DecidableEq ρ]

omit [DecidableEq ι] [DecidableEq ρ] in
theorem symm_eq_some_iff (leases : ι ≃. ρ) (party : ι) (resource : ρ) :
    leases.symm resource = some party ↔ leases party = some resource :=
  leases.mem_iff_mem

-- Who holds what, as a partial bijection: no resource has two holders, and no party has two
-- resources.
def lend (leases : ι ≃. ρ) (party : ι) (resource : ρ) (hparty : leases party = none)
    (hresource : leases.symm resource = none) : ι ≃. ρ where
  toFun := Function.update leases party (some resource)
  invFun := Function.update leases.symm resource (some party)
  inv other held := by
    rw [Function.update_apply, Function.update_apply]
    have hinv := symm_eq_some_iff leases other held
    by_cases hother : other = party
    · by_cases hheld : held = resource
      · rw [if_pos hheld, if_pos hother, hother, hheld]
        exact iff_of_true rfl rfl
      · rw [if_neg hheld, if_pos hother, hinv, hother, hparty]
        simp [Ne.symm hheld]
    · by_cases hheld : held = resource
      · rw [if_pos hheld, if_neg hother, ← hinv, hheld, hresource]
        simp [Ne.symm hother]
      · rw [if_neg hheld, if_neg hother, hinv]

def giveBack (leases : ι ≃. ρ) (party : ι) (resource : ρ) (h : leases party = some resource) :
    ι ≃. ρ where
  toFun := Function.update leases party none
  invFun := Function.update leases.symm resource none
  inv other held := by
    rw [Function.update_apply, Function.update_apply]
    have hinv := symm_eq_some_iff leases other held
    by_cases hother : other = party
    · by_cases hheld : held = resource
      · rw [if_pos hheld, if_pos hother]
        simp
      · rw [if_neg hheld, if_pos hother, hinv, hother, h]
        simp [Ne.symm hheld]
    · by_cases hheld : held = resource
      · rw [if_pos hheld, if_neg hother, hheld]
        refine iff_of_false (by simp) fun heq => hother ?_
        exact leases.inj heq h
      · rw [if_neg hheld, if_neg hother, hinv]

@[simp] theorem lend_apply {hparty hresource} :
    (lend leases party resource hparty hresource : ι → Option ρ) =
      Function.update leases party (some resource) := rfl

@[simp] theorem giveBack_apply {h} :
    (giveBack leases party resource h : ι → Option ρ) = Function.update leases party none := rfl

end MlkvPlus.Leases
