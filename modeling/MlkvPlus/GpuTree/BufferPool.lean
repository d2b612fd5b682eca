import MlkvPlus.Data.Leases
import MlkvPlus.Data.Transition

namespace MlkvPlus.GPUTreeHkv

open Transition

-- A buffer of the pool. `allocated` says that its five arrays were allocated; a buffer without
-- one of them is never taken.
structure PoolBuffer where
  allocated : Bool
  inUse : Bool
  deriving DecidableEq, Repr

def PoolBuffer.available (buffer : PoolBuffer) : Bool := !buffer.inUse && buffer.allocated

def initDeviceBuffers (numBuffers : Nat) (allocated : Nat → Bool) : List PoolBuffer :=
  (List.range (max numBuffers 2)).map fun index => ⟨allocated index, false⟩

-- The first available buffer, or the null pointer.
def getDeviceBuffer (pool : List PoolBuffer) : Option Nat × List PoolBuffer :=
  match pool.findIdx? PoolBuffer.available with
  | none => (none, pool)
  | some index => (some index, pool.modify index fun buffer => { buffer with inUse := true })

def releaseDeviceBuffer (pool : List PoolBuffer) : Option Nat → List PoolBuffer
  | none => pool
  | some index => pool.modify index fun buffer => { buffer with inUse := false }

inductive Lookup where
  | multiget
  | multigetGpuOnly
  deriving DecidableEq, Repr

-- The calls of CUDA and HKV while a lookup has its buffer. Each of them may throw.
inductive Point where
  | find
  | synchronize
  | checkAllTrue
  | copyAllTrue
  | copyFound
  deriving DecidableEq, Repr

def Lookup.points : Lookup → (allFound : Bool) → List Point
  | .multiget, false => [.find, .synchronize, .checkAllTrue, .copyAllTrue, .copyFound]
  | _, _ => [.find, .synchronize, .checkAllTrue, .copyAllTrue]

-- Where a lookup is. The statement behind get_device_buffer reads a field of the buffer, so a
-- lookup that gets the null pointer has used it. A lookup that throws leaves its buffer as it is.
inductive Phase where
  | running (buffer : Nat) (remaining : List Point)
  | usedNull
  | returned
  | threw (buffer : Nat)
  deriving DecidableEq, Repr

def Phase.buffer : Phase → Option Nat
  | .running buffer _ => some buffer
  | .usedNull => none
  | .returned => none
  | .threw buffer => some buffer

def Phase.ended : Phase → Bool
  | .returned => true
  | .threw _ => true
  | _ => false

structure Pool (ι : Type) where
  buffers : List PoolBuffer
  calls : ι → Option Phase

inductive PoolEvent (ι : Type) where
  | call (id : ι) (lookup : Lookup) (allFound : Bool)
  | proceed (id : ι)
  | throws (id : ι)
  | finish (id : ι)

variable {ι : Type} [DecidableEq ι]

namespace Pool

-- The two functions that touch the pool hold its mutex, so each of them is one step.
def step (s : Pool ι) : PoolEvent ι → Option (Pool ι)
  | .call id lookup allFound =>
    match s.calls id with
    | some _ => none
    | none =>
      match getDeviceBuffer s.buffers with
      | (none, _) => some { s with calls := Function.update s.calls id (some .usedNull) }
      | (some buffer, buffers) =>
        some ⟨buffers, Function.update s.calls id
          (some (.running buffer (lookup.points allFound)))⟩
  | .proceed id =>
    match s.calls id with
    | some (.running buffer (_ :: rest)) =>
      some { s with calls := Function.update s.calls id (some (.running buffer rest)) }
    | _ => none
  | .throws id =>
    match s.calls id with
    | some (.running buffer (_ :: _)) =>
      some { s with calls := Function.update s.calls id (some (.threw buffer)) }
    | _ => none
  | .finish id =>
    match s.calls id with
    | some (.running buffer []) =>
      some ⟨releaseDeviceBuffer s.buffers (some buffer),
        Function.update s.calls id (some .returned)⟩
    | _ => none

-- The tree opens its pool with four buffers.
def opened (ι : Type) (allocated : Nat → Bool) : Pool ι where
  buffers := initDeviceBuffers 4 allocated
  calls _ := none

def machine (ι : Type) [DecidableEq ι] : Machine (Pool ι) (PoolEvent ι) where
  initial s := ∃ allocated, s = opened ι allocated
  step := step

def bufferOf (s : Pool ι) (id : ι) : Option Nat := (s.calls id).bind Phase.buffer

-- What a step does to the pool.
inductive Step (s : Pool ι) : PoolEvent ι → Pool ι → Prop where
  | null (id : ι) (lookup : Lookup) (allFound : Bool) (hnew : s.calls id = none)
      (hnone : ∀ buffer ∈ s.buffers, buffer.available = false) :
      Step s (.call id lookup allFound)
        { s with calls := Function.update s.calls id (some .usedNull) }
  | take (id : ι) (lookup : Lookup) (allFound : Bool) (index : Nat) (buffer : PoolBuffer)
      (hnew : s.calls id = none) (hbuffer : s.buffers[index]? = some buffer)
      (havailable : buffer.available = true) :
      Step s (.call id lookup allFound)
        ⟨s.buffers.modify index fun buffer => { buffer with inUse := true },
          Function.update s.calls id (some (.running index (lookup.points allFound)))⟩
  | proceed (id : ι) (index : Nat) (point : Point) (rest : List Point)
      (hrunning : s.calls id = some (.running index (point :: rest))) :
      Step s (.proceed id)
        { s with calls := Function.update s.calls id (some (.running index rest)) }
  | throws (id : ι) (index : Nat) (point : Point) (rest : List Point)
      (hrunning : s.calls id = some (.running index (point :: rest))) :
      Step s (.throws id) { s with calls := Function.update s.calls id (some (.threw index)) }
  | finish (id : ι) (index : Nat) (hrunning : s.calls id = some (.running index [])) :
      Step s (.finish id)
        ⟨s.buffers.modify index fun buffer => { buffer with inUse := false },
          Function.update s.calls id (some .returned)⟩

variable {s s' : Pool ι} {event : PoolEvent ι}

theorem step_spec (h : s.step event = some s') : Step s event s' := by
  cases event with
  | call id lookup allFound =>
    rw [step] at h
    cases hcall : s.calls id with
    | some phase =>
      rw [hcall] at h
      cases h
    | none =>
      rw [hcall, getDeviceBuffer] at h
      cases hfind : s.buffers.findIdx? PoolBuffer.available with
      | none =>
        rw [hfind] at h
        cases h
        exact .null id lookup allFound hcall (List.findIdx?_eq_none_iff.mp hfind)
      | some index =>
        rw [hfind] at h
        cases h
        obtain ⟨hindex, havailable, -⟩ := List.findIdx?_eq_some_iff_getElem.mp hfind
        exact .take id lookup allFound index _ hcall (List.getElem?_eq_getElem hindex)
          havailable
  | proceed id =>
    rw [step] at h
    split at h
    case h_1 index point rest hcall =>
      cases h
      exact .proceed id index point rest hcall
    case h_2 => cases h
  | throws id =>
    rw [step] at h
    split at h
    case h_1 index point rest hcall =>
      cases h
      exact .throws id index point rest hcall
    case h_2 => cases h
  | finish id =>
    rw [step] at h
    split at h
    case h_1 index hcall =>
      cases h
      exact .finish id index hcall
    case h_2 => cases h

-- The buffers in use are those that a lookup has, or had when it threw.
structure Owned (leases : ι ≃. Nat) (s : Pool ι) : Prop where
  bufferOf_eq : s.bufferOf = leases
  inUse_eq : ∀ index buffer, s.buffers[index]? = some buffer →
    buffer.inUse = (leases.symm index).isSome
  lt_length : ∀ id index, leases id = some index → index < s.buffers.length

theorem bufferOf_update (s : Pool ι) (buffers : List PoolBuffer) (id : ι) (phase : Phase) :
    bufferOf ⟨buffers, Function.update s.calls id (some phase)⟩ =
      Function.update s.bufferOf id phase.buffer := by
  funext other
  by_cases hother : other = id
  · simp [bufferOf, hother]
  · simp [bufferOf, hother]

omit [DecidableEq ι] in
theorem inUse_modify {pool : List PoolBuffer}
    (h : ∀ index buffer, pool[index]? = some buffer → buffer.inUse = (holder index).isSome)
    (changed : Nat) (next : Option ι) (index : Nat) (buffer : PoolBuffer)
    (hbuffer : (pool.modify changed fun buffer => { buffer with inUse := next.isSome })[index]? =
      some buffer) : buffer.inUse = (Function.update holder changed next index).isSome := by
  rw [List.getElem?_modify, Option.map_eq_map, Option.map_eq_some_iff] at hbuffer
  obtain ⟨old, hold, rfl⟩ := hbuffer
  by_cases hindex : index = changed
  · rw [if_pos hindex.symm, hindex, Function.update_self]
  · rw [if_neg (Ne.symm hindex), Function.update_of_ne hindex]
    exact h index old hold

omit [DecidableEq ι] in
theorem owned_opened (allocated : Nat → Bool) : Owned ⊥ (opened ι allocated) where
  bufferOf_eq := rfl
  inUse_eq index buffer hbuffer := by
    have hmem := List.mem_of_getElem? hbuffer
    obtain ⟨position, -, rfl⟩ := List.mem_map.mp hmem
    rfl
  lt_length id index hlease := by cases hlease

variable {leases : ι ≃. Nat}

theorem Owned.take (h : Owned leases s) {id : ι} (remaining : List Point) (hnew : s.calls id = none)
    (hbuffer : s.buffers[index]? = some buffer) (havailable : buffer.available = true) :
    ∃ leases, Owned leases ⟨s.buffers.modify index fun buffer => { buffer with inUse := true },
      Function.update s.calls id (some (.running index remaining))⟩ := by
  have hid : leases id = none := by
    rw [← h.bufferOf_eq, bufferOf, hnew]
    rfl
  have hindex : leases.symm index = none := by
    have hinUse := h.inUse_eq index buffer hbuffer
    rw [PoolBuffer.available, Bool.and_eq_true, Bool.not_eq_true'] at havailable
    rw [havailable.1] at hinUse
    exact Option.not_isSome_iff_eq_none.mp (by rw [← hinUse]; decide)
  refine ⟨Leases.lend leases id index hid hindex, ?_, ?_, ?_⟩
  · rw [bufferOf_update, h.bufferOf_eq]
    rfl
  · exact inUse_modify h.inUse_eq index (some id)
  · intro other held hheld
    rw [List.length_modify]
    rw [Leases.lend_apply, Function.update_apply] at hheld
    split at hheld
    · cases hheld
      exact (List.getElem?_eq_some_iff.mp hbuffer).1
    · exact h.lt_length other held hheld

theorem Owned.giveBack (h : Owned leases s) {id : ι}
    (hrunning : s.calls id = some (.running index [])) :
    ∃ leases, Owned leases ⟨s.buffers.modify index fun buffer => { buffer with inUse := false },
      Function.update s.calls id (some .returned)⟩ := by
  have hid : leases id = some index := by
    rw [← h.bufferOf_eq, bufferOf, hrunning]
    rfl
  refine ⟨Leases.giveBack leases id index hid, ?_, ?_, ?_⟩
  · rw [bufferOf_update, h.bufferOf_eq]
    rfl
  · exact inUse_modify h.inUse_eq index none
  · intro other held hheld
    rw [List.length_modify]
    rw [Leases.giveBack_apply, Function.update_apply] at hheld
    split at hheld
    · cases hheld
    · exact h.lt_length other held hheld

theorem Owned.keep (h : Owned leases s) {id : ι} (hafter : after.buffer = s.bufferOf id) :
    Owned leases { s with calls := Function.update s.calls id (some after) } where
  bufferOf_eq := by rw [bufferOf_update, ← h.bufferOf_eq, hafter, Function.update_eq_self]
  inUse_eq := h.inUse_eq
  lt_length := h.lt_length

theorem Owned.step (h : Owned leases s) (hstep : Step s event s') : ∃ leases, Owned leases s' := by
  cases hstep with
  | null id lookup allFound hnew hnone => exact ⟨leases, h.keep (by rw [bufferOf, hnew]; rfl)⟩
  | take id lookup allFound index buffer hnew hbuffer havailable =>
    exact h.take (lookup.points allFound) hnew hbuffer havailable
  | proceed id index point rest hrunning =>
    exact ⟨leases, h.keep (by rw [bufferOf, hrunning]; rfl)⟩
  | throws id index point rest hrunning =>
    exact ⟨leases, h.keep (by rw [bufferOf, hrunning]; rfl)⟩
  | finish id index hrunning => exact h.giveBack hrunning

def Leased (s : Pool ι) : Prop := ∃ leases, Owned leases s

theorem leased_of_reachable (h : (machine ι).Reachable (fun _ _ => True) s) : s.Leased := by
  refine h.invariant ?_ ?_
  · rintro s ⟨allocated, rfl⟩
    exact ⟨⊥, owned_opened allocated⟩
  · rintro s event s' ⟨leases, howned⟩ - hstep
    exact howned.step (step_spec hstep)

omit [DecidableEq ι] in
theorem Owned.calls (h : Owned leases s) {id : ι} (hphase : s.calls id = some phase)
    (hbuffer : phase.buffer = some index) : leases id = some index := by
  rw [← h.bufferOf_eq, bufferOf, hphase]
  exact hbuffer

omit [DecidableEq ι] in
theorem Owned.free_iff (h : Owned leases s)
    (hended : ∀ id phase, s.calls id = some phase → phase.ended = true) :
    (∀ buffer ∈ s.buffers, buffer.inUse = false) ↔
      ∀ id phase, s.calls id = some phase → phase = .returned := by
  constructor
  · intro hfree id phase hphase
    have hphaseEnded := hended id phase hphase
    cases phase with
    | running index remaining => cases hphaseEnded
    | usedNull => cases hphaseEnded
    | returned => rfl
    | threw index =>
      have hlease := h.calls hphase rfl
      have hlt := h.lt_length id index hlease
      have hinUse := h.inUse_eq index _ (List.getElem?_eq_getElem hlt)
      rw [hfree _ (List.getElem_mem hlt), (Leases.symm_eq_some_iff leases id index).mpr hlease]
        at hinUse
      cases hinUse
  · intro hreturned buffer hbuffer
    obtain ⟨index, hindex⟩ := List.getElem?_of_mem hbuffer
    rw [h.inUse_eq index buffer hindex]
    cases howner : leases.symm index with
    | none => rfl
    | some id =>
      have hlease := (Leases.symm_eq_some_iff leases id index).mp howner
      rw [← h.bufferOf_eq, bufferOf, Option.bind_eq_some_iff] at hlease
      obtain ⟨phase, hphase, hheld⟩ := hlease
      rw [hreturned id phase hphase] at hheld
      cases hheld

theorem usedNull_iff {id : ι} (h : Step s (.call id lookup allFound) s') :
    s'.calls id = some .usedNull ↔ ∀ buffer ∈ s.buffers, buffer.available = false := by
  cases h with
  | null _ _ _ hnew hnone => exact iff_of_true (Function.update_self _ _ _) hnone
  | take _ _ _ index buffer hnew hbuffer havailable =>
    refine iff_of_false (fun hnull => ?_) fun hnone => ?_
    · cases (Function.update_self id _ s.calls).symm.trans hnull
    · rw [hnone buffer (List.mem_of_getElem? hbuffer)] at havailable
      cases havailable

-- No two lookups ever have the same buffer. But a lookup that finds no free buffer uses the null
-- pointer, and a lookup that throws keeps its buffer: when all have ended, the buffers are free
-- if and only if none of them threw.
theorem deviceBuffers_reachable (s : Pool ι) (h : (machine ι).Reachable (fun _ _ => True) s) :
    (∀ first second index remaining others, s.calls first = some (.running index remaining) →
        s.calls second = some (.running index others) → first = second) ∧
    (∀ id lookup allFound s', s.step (.call id lookup allFound) = some s' →
        (s'.calls id = some .usedNull ↔ ∀ buffer ∈ s.buffers, buffer.available = false)) ∧
    ((∀ id phase, s.calls id = some phase → phase.ended = true) →
      ((∀ buffer ∈ s.buffers, buffer.inUse = false) ↔
        ∀ id phase, s.calls id = some phase → phase = .returned)) := by
  obtain ⟨leases, howned⟩ := leased_of_reachable h
  refine ⟨?_, fun id lookup allFound s' hstep => usedNull_iff (step_spec hstep), howned.free_iff⟩
  intro first second index remaining others hfirst hsecond
  exact leases.inj (howned.calls hfirst rfl) (howned.calls hsecond rfl)

def quietLookup : List (PoolEvent (Fin 5)) :=
  [.call 0 .multigetGpuOnly true, .proceed 0, .proceed 0, .proceed 0, .proceed 0, .finish 0]

theorem deviceBuffers_reachable_quiet :
    ∃ s, (machine (Fin 5)).exec (opened _ fun _ => true) quietLookup = some s ∧
      s.calls 0 = some .returned ∧ ∀ buffer ∈ s.buffers, buffer.inUse = false := by
  have hinitial : (machine (Fin 5)).initial (opened _ fun _ => true) := ⟨_, rfl⟩
  refine ⟨_, rfl, rfl, ?_⟩
  have hreachable := Machine.Reachable.exec quietLookup (.start hinitial)
    (Machine.allows_true _ _ _) rfl
  refine ((deviceBuffers_reachable _ hreachable).2.2 ?_).mpr ?_
  · decide
  · decide

-- Four lookups that throw at their first call.
def throwingLookups : List (PoolEvent (Fin 5)) :=
  [.call 0 .multiget true, .throws 0, .call 1 .multiget true, .throws 1,
    .call 2 .multigetGpuOnly true, .throws 2, .call 3 .multigetGpuOnly true, .throws 3]

-- They have all ended and every buffer is in use, and the next lookup uses the null pointer.
theorem deviceBuffers_leaked :
    ∃ s s', (machine (Fin 5)).exec (opened _ fun _ => true) throwingLookups = some s ∧
      (∀ id phase, s.calls id = some phase → phase.ended = true) ∧
      (∀ buffer ∈ s.buffers, buffer.inUse = true) ∧
      s.step (.call 4 .multigetGpuOnly true) = some s' ∧ s'.calls 4 = some .usedNull := by
  refine ⟨_, _, rfl, ?_, ?_, rfl, ?_⟩
  · decide
  · decide
  · decide

end Pool

end MlkvPlus.GPUTreeHkv
