import MlkvPlus.Data.Interleaving
import Mathlib.Data.List.Nodup

namespace MlkvPlus.Slots

-- A thread takes the next slot of its group from an atomic counter and then fills it, part by
-- part.
inductive Action (ι γ π : Type) where
  | reserve (group : γ) (thread : ι)
  | copy (group : γ) (thread : ι) (part : π)

@[ext] structure State (ι γ π α : Type) where
  count : γ → Nat
  position : ι → Nat
  cells : γ → Nat → π → α

variable {ι γ π α : Type} [DecidableEq ι] [DecidableEq γ] [DecidableEq π]

def step (value : ι → π → α) (s : State ι γ π α) : Action ι γ π → State ι γ π α
  | .reserve group thread => { s with
      count := Function.update s.count group (s.count group + 1)
      position := Function.update s.position thread (s.count group) }
  | .copy group thread part => { s with
      cells := fun other slot field =>
        if other = group ∧ slot = s.position thread ∧ field = part then value thread part
        else s.cells other slot field }

@[simp] theorem count_reserve (value : ι → π → α) (s : State ι γ π α) (group : γ) (thread : ι) :
    (step value s (.reserve group thread)).count =
      Function.update s.count group (s.count group + 1) := rfl

@[simp] theorem position_reserve (value : ι → π → α) (s : State ι γ π α) (group : γ) (thread : ι) :
    (step value s (.reserve group thread)).position =
      Function.update s.position thread (s.count group) := rfl

def program (group : ι → Option γ) (parts : γ → List π) (thread : ι) : List (Action ι γ π) :=
  match group thread with
  | none => []
  | some own => .reserve own thread :: (parts own).map (.copy own thread)

-- How far a thread is. `owners` lists the threads of each group in the order of their slots.
inductive Progress (parts : γ → List π) (value : ι → π → α) (s : State ι γ π α)
    (owners : γ → List ι) (thread : ι) : Option γ → List (Action ι γ π) → Prop where
  | idle : Progress parts value s owners thread none []
  | waiting {own : γ} (hwaiting : thread ∉ owners own) :
      Progress parts value s owners thread (some own)
        (.reserve own thread :: (parts own).map (.copy own thread))
  | filling {own : γ} (filled rest : List π) {remaining : List (Action ι γ π)} (slot : Nat)
      (hslot : (owners own)[slot]? = some thread) (hposition : s.position thread = slot)
      (hparts : parts own = filled ++ rest) (hremaining : remaining = rest.map (.copy own thread))
      (hfilled : ∀ part ∈ filled, s.cells own slot part = value thread part) :
      Progress parts value s owners thread (some own) remaining

omit [DecidableEq ι] [DecidableEq γ] [DecidableEq π] in
theorem Progress.frame {s s' : State ι γ π α}
    (h : Progress parts value s owners thread own remaining)
    (howners : ∀ group (slot : Nat), (owners group)[slot]? = some thread →
      (owners' group)[slot]? = some thread)
    (hwaits : ∀ group, thread ∉ owners group → thread ∉ owners' group)
    (hposition : s'.position thread = s.position thread)
    (hcells : ∀ group (slot : Nat) part, (owners group)[slot]? = some thread →
      s.position thread = slot → s'.cells group slot part = s.cells group slot part) :
    Progress parts value s' owners' thread own remaining := by
  cases h with
  | idle => exact .idle
  | waiting hwaiting => exact .waiting (hwaits _ hwaiting)
  | filling filled rest slot hslot hsame hparts hremaining hfilled =>
    refine .filling filled rest slot (howners _ _ hslot) (hposition.trans hsame) hparts
      hremaining ?_
    intro part hpart
    rw [hcells _ _ part hslot hsame, hfilled part hpart]

-- A thread gets the next slot of its group.
def enlist (owners : γ → List ι) (own : γ) (thread : ι) : γ → List ι :=
  Function.update owners own (owners own ++ [thread])

section Enlist

variable {owners : γ → List ι} {own group : γ} {thread member : ι}

omit [DecidableEq ι] in
theorem enlist_eq (owners : γ → List ι) (own : γ) (thread : ι) (group : γ) :
    enlist owners own thread group = owners group ++ if group = own then [thread] else [] := by
  rw [enlist, Function.update_apply]
  split
  case isTrue heq => rw [heq]
  case isFalse => rw [List.append_nil]

omit [DecidableEq ι] in
theorem mem_enlist :
    member ∈ enlist owners own thread group ↔
      member ∈ owners group ∨ group = own ∧ member = thread := by
  rw [enlist_eq, List.mem_append]
  split
  case isTrue heq => simp [heq]
  case isFalse hne => simp [hne]

omit [DecidableEq ι] in
theorem nodup_enlist (hnodup : (owners group).Nodup) (hnew : thread ∉ owners own) :
    (enlist owners own thread group).Nodup := by
  rw [enlist_eq]
  split
  case isTrue heq =>
    rw [← heq] at hnew
    exact hnodup.append (List.nodup_singleton _) (List.disjoint_singleton.mpr hnew)
  case isFalse => rwa [List.append_nil]

omit [DecidableEq ι] in
theorem getElem?_enlist {slot : Nat} (h : (owners group)[slot]? = some member) :
    (enlist owners own thread group)[slot]? = some member := by
  rw [enlist_eq, List.getElem?_append_left (List.getElem?_eq_some_iff.mp h).1, h]

end Enlist

structure Inv (group : ι → Option γ) (parts : γ → List π) (value : ι → π → α)
    (threads : ι → List (Action ι γ π)) (s : State ι γ π α) (owners : γ → List ι) : Prop where
  nodup : ∀ own, (owners own).Nodup
  count : ∀ own, s.count own = (owners own).length
  members : ∀ own, ∀ thread ∈ owners own, group thread = some own
  progress : ∀ thread, Progress parts value s owners thread (group thread) (threads thread)

namespace Inv

variable {group : ι → Option γ} {parts : γ → List π} {value : ι → π → α}
  {threads : ι → List (Action ι γ π)} {s : State ι γ π α} {owners : γ → List ι} {thread : ι}
  {own : γ}

theorem reserve (h : Inv group parts value threads s owners) (hgroup : group thread = some own)
    (hwaiting : thread ∉ owners own) :
    Inv group parts value (Function.update threads thread ((parts own).map (.copy own thread)))
      (step value s (.reserve own thread)) (enlist owners own thread) where
  nodup other := nodup_enlist (h.nodup other) hwaiting
  count other := by
    rw [count_reserve, Function.update_apply, enlist_eq, List.length_append, h.count, h.count]
    split
    case isTrue heq => rw [heq, List.length_singleton]
    case isFalse => rfl
  members other member hmember := by
    rcases mem_enlist.mp hmember with hold | ⟨rfl, rfl⟩
    · exact h.members other member hold
    · exact hgroup
  progress other := by
    by_cases hother : other = thread
    · rw [hother, Function.update_self, hgroup]
      refine .filling [] (parts own) (owners own).length ?_ ?_ rfl rfl (List.forall_mem_nil _)
      · rw [enlist_eq, if_pos rfl]
        simp
      · rw [position_reserve, Function.update_self, h.count]
    · rw [Function.update_of_ne hother]
      refine (h.progress other).frame (fun _ _ hslot => getElem?_enlist hslot) ?_
        (Function.update_of_ne hother ..) fun _ _ _ _ _ => rfl
      intro which hwaits hmember
      rcases mem_enlist.mp hmember with hold | ⟨-, hsame⟩
      · exact hwaits hold
      · exact hother hsame

theorem copy {slot : Nat} (h : Inv group parts value threads s owners)
    (hgroup : group thread = some own) (hslot : (owners own)[slot]? = some thread)
    (hposition : s.position thread = slot) (hparts : parts own = filled ++ part :: rest)
    (hfilled : ∀ part ∈ filled, s.cells own slot part = value thread part) :
    Inv group parts value (Function.update threads thread (rest.map (.copy own thread)))
      (step value s (.copy own thread part)) owners := by
  refine ⟨h.nodup, h.count, h.members, ?_⟩
  intro other
  by_cases hother : other = thread
  · rw [hother, Function.update_self, hgroup]
    refine .filling (filled ++ [part]) rest slot hslot hposition ?_ rfl ?_
    · rw [hparts, List.append_assoc, List.singleton_append]
    · intro field hfield
      rw [step]
      dsimp only
      split
      case isTrue hsame => rw [hsame.2.2]
      case isFalse hsame =>
        rw [List.mem_append, List.mem_singleton] at hfield
        rcases hfield with hfield | rfl
        · exact hfilled field hfield
        · exact absurd ⟨rfl, hposition.symm, rfl⟩ hsame
  · rw [Function.update_of_ne hother]
    refine (h.progress other).frame (fun _ _ h => h) (fun _ h => h) rfl ?_
    intro which place field hplace _
    -- a slot has one owner
    refine if_neg ?_
    rintro ⟨rfl, rfl, rfl⟩
    rw [hposition, hslot] at hplace
    exact hother (Option.some.inj hplace).symm

theorem next (h : Inv group parts value threads s owners) (hnext : threads thread = action :: rest)
    :
    ∃ owners', Inv group parts value (Function.update threads thread rest)
      (step value s action) owners' := by
  have hprogress := h.progress thread
  rw [hnext] at hprogress
  generalize hgroup : group thread = own at hprogress
  cases hprogress with
  | waiting hwaiting => exact ⟨_, h.reserve hgroup hwaiting⟩
  | filling filled parts' slot hslot hposition hparts hremaining hfilled =>
    cases parts' with
    | nil => cases hremaining
    | cons part parts' =>
      cases hremaining
      exact ⟨_, h.copy hgroup hslot hposition hparts hfilled⟩

end Inv

-- When all threads are done, the slots of a group hold what its threads brought, one slot each.
theorem exists_owners (value : ι → π → α) (hrun : Interleaves (program group parts) run)
    (s : State ι γ π α) (hcount : ∀ own, s.count own = 0) :
    ∃ owners : γ → List ι, ∀ own, (owners own).Nodup ∧
      (∀ thread, thread ∈ owners own ↔ group thread = some own) ∧
      (run.foldl (step value) s).count own = (owners own).length ∧
      ∀ slot thread, (owners own)[slot]? = some thread → ∀ part ∈ parts own,
        (run.foldl (step value) s).cells own slot part = value thread part := by
  have hstart : Inv group parts value (program group parts) s (fun _ => []) := by
    refine ⟨fun _ => List.nodup_nil, hcount, fun _ => List.forall_mem_nil _, fun thread => ?_⟩
    rw [program]
    cases group thread with
    | none => exact .idle
    | some own => exact .waiting List.not_mem_nil
  obtain ⟨ended, hended, owners, hinv⟩ := hrun.invariant
    (fun threads s => ∃ owners, Inv group parts value threads s owners)
    (fun threads s thread action rest hinv hnext => by
      obtain ⟨owners, hinv⟩ := hinv
      exact hinv.next hnext) s ⟨_, hstart⟩
  refine ⟨owners, fun own => ⟨hinv.nodup own, ?_, hinv.count own, ?_⟩⟩
  · intro thread
    refine ⟨hinv.members own thread, fun hgroup => ?_⟩
    have hprogress := hinv.progress thread
    rw [hended thread, hgroup] at hprogress
    cases hprogress with
    | filling _ _ slot hslot => exact List.mem_of_getElem? hslot
  · intro slot thread hslot part hpart
    have hprogress := hinv.progress thread
    rw [hended thread, hinv.members own thread (List.mem_of_getElem? hslot)] at hprogress
    cases hprogress with
    | filling filled rest place hplace _ hparts hremaining hfilled =>
      have hsame : place = slot := by
        have hlt := (List.getElem?_eq_some_iff.mp hplace).1
        exact (List.getElem?_inj hlt (hinv.nodup own)).mp (hplace.trans hslot.symm)
      have hrest : rest = [] := List.map_eq_nil_iff.mp hremaining.symm
      rw [hparts, hrest, List.append_nil] at hpart
      rw [← hsame]
      exact hfilled part hpart

end MlkvPlus.Slots
