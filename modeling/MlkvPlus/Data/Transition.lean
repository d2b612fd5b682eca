import Mathlib.Logic.Function.Basic
import Mathlib.Tactic.Basic

namespace MlkvPlus.Transition

theorem some_of_update {ι α : Type} [DecidableEq ι] {parties : ι → Option α} {party other : ι}
    {changed : Option α} {value : α}
    (h : Function.update parties party changed other = some value) :
    changed = some value ∨ parties other = some value := by
  by_cases heq : other = party
  · rw [heq, Function.update_self] at h
    exact Or.inl h
  · rw [Function.update_of_ne heq] at h
    exact Or.inr h

-- A machine whose events are enabled or not in a state.
structure Machine (σ ε : Type) where
  initial : σ → Prop
  step : σ → ε → Option σ

namespace Machine

variable {σ ε : Type} (m : Machine σ ε)

-- The states of the runs all of whose steps are allowed.
inductive Reachable (allowed : σ → ε → Prop) : σ → Prop where
  | start : m.initial s → Reachable allowed s
  | step : Reachable allowed s → allowed s e → m.step s e = some s' → Reachable allowed s'

theorem Reachable.invariant {m : Machine σ ε} {allowed : σ → ε → Prop} {inv : σ → Prop}
    (hinitial : ∀ s, m.initial s → inv s)
    (hstep : ∀ s e s', inv s → allowed s e → m.step s e = some s' → inv s')
    (h : m.Reachable allowed s) : inv s := by
  induction h with
  | start h => exact hinitial _ h
  | step _ hallowed hnext ih => exact hstep _ _ _ ih hallowed hnext

def exec : σ → List ε → Option σ
  | s, [] => some s
  | s, event :: rest =>
    match m.step s event with
    | none => none
    | some s' => exec s' rest

-- Every event is allowed in the state it meets.
def Allows (allowed : σ → ε → Prop) : σ → List ε → Prop
  | _, [] => True
  | s, event :: rest => allowed s event ∧ ∀ s', m.step s event = some s' → Allows allowed s' rest

variable {m} in
theorem Allows.cons {allowed : σ → ε → Prop} {event : ε} {rest : List ε}
    (hallowed : allowed s event) (hstep : m.step s event = some s')
    (hrest : m.Allows allowed s' rest) : m.Allows allowed s (event :: rest) := by
  refine ⟨hallowed, fun next hnext => ?_⟩
  rw [hstep] at hnext
  cases hnext
  exact hrest

theorem Reachable.exec {m : Machine σ ε} {allowed : σ → ε → Prop} (events : List ε)
    (h : m.Reachable allowed s) (hallows : m.Allows allowed s events)
    (hexec : m.exec s events = some s') : m.Reachable allowed s' := by
  induction events generalizing s with
  | nil =>
    cases hexec
    exact h
  | cons event rest ih =>
    rw [Machine.exec] at hexec
    split at hexec
    · cases hexec
    · rename_i next hnext
      exact ih (h.step hallows.1 hnext) (hallows.2 next hnext) hexec

-- The same for conditions that a check decides along the run.
def check (holds : σ → ε → Bool) : σ → List ε → Bool
  | _, [] => true
  | s, event :: rest =>
    holds s event && match m.step s event with
      | none => true
      | some s' => check holds s' rest

variable {m} in
theorem Allows.of_check {allowed : σ → ε → Prop} {holds : σ → ε → Bool}
    (hallowed : ∀ s event, holds s event = true → allowed s event) {events : List ε}
    (h : m.check holds s events = true) : m.Allows allowed s events := by
  induction events generalizing s with
  | nil => trivial
  | cons event rest ih =>
    rw [check, Bool.and_eq_true] at h
    refine ⟨hallowed s event h.1, fun s' hstep => ih ?_⟩
    have hrest := h.2
    rw [hstep] at hrest
    exact hrest

theorem allows_true (s : σ) (events : List ε) : m.Allows (fun _ _ => True) s events := by
  induction events generalizing s with
  | nil => trivial
  | cons event rest ih => exact ⟨trivial, fun s' _ => ih s'⟩

end Machine

end MlkvPlus.Transition
