import Mathlib.Data.List.Basic
import Mathlib.Logic.Function.Basic

namespace MlkvPlus.Recency

variable {κ : Type} [DecidableEq κ] {stamp : κ → Option Nat} {clock : Nat} {log : List κ}

-- A clock that ticks at every use and stamps the used key with its time. The log has the
-- uses, newest first, so that the index of a key is the number of uses since its last one.
structure Stamped (stamp : κ → Option Nat) (clock : Nat) (log : List κ) : Prop where
  used : ∀ key time, stamp key = some time → key ∈ log
  stamp_eq : ∀ key time, stamp key = some time → time + log.idxOf key = clock
  clock_le : clock ≤ log.length

theorem stamped_empty (log : List κ) : Stamped (fun _ => none) 0 log where
  used _ _ h := by cases h
  stamp_eq _ _ h := by cases h
  clock_le := Nat.zero_le _

theorem Stamped.use (h : Stamped stamp clock log) (key : κ) :
    Stamped (Function.update stamp key (some (clock + 1))) (clock + 1) (key :: log) where
  used other time htime := by
    by_cases heq : other = key
    · rw [heq]
      exact List.mem_cons_self
    · rw [Function.update_of_ne heq] at htime
      exact List.mem_cons_of_mem key (h.used other time htime)
  stamp_eq other time htime := by
    by_cases heq : other = key
    · rw [heq, Function.update_self] at htime
      cases htime
      rw [heq, List.idxOf_cons_self, Nat.add_zero]
    · rw [Function.update_of_ne heq] at htime
      rw [List.idxOf_cons_ne log (Ne.symm heq), ← h.stamp_eq other time htime]
      rfl
  clock_le := Nat.succ_le_succ h.clock_le

theorem Stamped.forget (h : Stamped stamp clock log)
    (hfewer : ∀ key time, fewer key = some time → stamp key = some time) :
    Stamped fewer clock log where
  used key time htime := h.used key time (hfewer key time htime)
  stamp_eq key time htime := h.stamp_eq key time (hfewer key time htime)
  clock_le := h.clock_le

theorem Stamped.idxOf_lt (h : Stamped stamp clock log) (hkey : stamp key = some time)
    (hother : stamp other = some later) (hle : time ≤ later) (hne : other ≠ key) :
    log.idxOf other < log.idxOf key := by
  have htime := h.stamp_eq key time hkey
  have hlater := h.stamp_eq other later hother
  have hdistinct : log.idxOf other ≠ log.idxOf key :=
    fun heq => hne ((List.idxOf_inj (h.used other later hother)).mp heq)
  omega

end MlkvPlus.Recency
