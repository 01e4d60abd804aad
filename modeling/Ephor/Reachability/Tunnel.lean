import Mathlib.Data.UInt
import Ephor.Foundation.FiniteMap
import Ephor.Foundation.Text
import Ephor.Foundation.Transition

/-!
# The tunnel registry of the reachability adapter

`pier-reachability-adapter/src/tunnel.rs`: a box dials in and registers the name that its
tunnel serves.  The registry maps each name to one tunnel and to the key that proved
itself for it.  A registration is undone by dropping its guard, which only spawns a task;
the task takes the lock at some later time, when the name may belong to a newer
registration, and tells the two apart by a generation number.
-/

namespace Ephor
namespace Reachability

open Foundation
open Foundation.Text
open Transition

abbrev Str := List Char

structure Registration where
  name : Str
  allowedServices : Finset Str
deriving DecidableEq

structure RegisteredTunnel (handle : Type) where
  handle : handle
  allowedServices : Finset Str
  ownerIk : Bytes
  generation : UInt64
deriving DecidableEq

structure RegistryState (handle : Type) where
  tunnels : FiniteMap Str (RegisteredTunnel handle)
  nextGeneration : UInt64

/-- The name and generation that the guard hands to its deregister task. -/
structure RegistrationGuard where
  name : Str
  generation : UInt64
deriving DecidableEq

inductive RegistryError where
  | ownedByDifferentIdentity (name : Str)
deriving DecidableEq

structure TunnelLookup (handle : Type) where
  handle : handle
  allowedServices : Finset Str
deriving DecidableEq

variable {handle : Type}

namespace RegistryState

def OwnedByOther (state : RegistryState handle) (name : Str) (ownerIk : Bytes) : Prop :=
  exists existing, state.tunnels.lookup name = some existing ∧ existing.ownerIk ≠ ownerIk

instance (state : RegistryState handle) (name : Str) (ownerIk : Bytes) :
    Decidable (state.OwnedByOther name ownerIk) :=
  match h : state.tunnels.lookup name with
  | none =>
      isFalse (by
        intro hother
        rcases hother with ⟨existing, hlookup, _⟩
        rw [h] at hlookup
        cases hlookup)
  | some existing =>
      decidable_of_iff (existing.ownerIk ≠ ownerIk) (by
        constructor
        · intro hne
          exact ⟨existing, h, hne⟩
        · intro hother
          rcases hother with ⟨found, hlookup, hne⟩
          rw [h] at hlookup
          cases hlookup
          exact hne)

/-- `TunnelRegistry::register`. The counter is a `u64` and wraps. -/
def register (state : RegistryState handle) (registration : Registration)
    (ownerIk : Bytes) (tunnel : handle) :
    Except RegistryError RegistrationGuard × RegistryState handle :=
  if state.OwnedByOther registration.name ownerIk then
    (Except.error (RegistryError.ownedByDifferentIdentity registration.name), state)
  else
    (Except.ok ⟨registration.name, state.nextGeneration⟩,
      { tunnels := state.tunnels.insert registration.name
          { handle := tunnel
            allowedServices := registration.allowedServices
            ownerIk := ownerIk
            generation := state.nextGeneration }
        nextGeneration := state.nextGeneration + 1 })

def lookup (state : RegistryState handle) (sniName : Str) : Option (TunnelLookup handle) :=
  (state.tunnels.lookup (lower sniName)).map fun t => ⟨t.handle, t.allowedServices⟩

def deregister (state : RegistryState handle) (name : Str) (generation : UInt64) :
    RegistryState handle :=
  match state.tunnels.lookup name with
  | none => state
  | some existing =>
      if existing.generation = generation then
        { state with tunnels := state.tunnels.erase name }
      else
        state

def owner (state : RegistryState handle) (name : Str) : Option Bytes :=
  (state.tunnels.lookup name).map RegisteredTunnel.ownerIk

theorem owner_eq_some {state : RegistryState handle} {name : Str} {ik : Bytes} :
    state.owner name = some ik <-> exists t, state.tunnels.lookup name = some t ∧ t.ownerIk = ik :=
  Option.map_eq_some_iff

end RegistryState

namespace Tunnel

/-!
# Guards and their tasks

The adapter holds the guard of every registration it made.  Dropping a guard spawns its
task; the scheduler runs the task at any later time.
-/

structure System (handle : Type) where
  registry : RegistryState handle
  /-- The guards that `register` returned, in order. -/
  issued : List RegistrationGuard
  /-- The guards not dropped yet, by their place in `issued`. -/
  held : Finset Nat
  /-- The spawned deregister tasks that have not run yet. -/
  spawned : Finset Nat

inductive Event (handle : Type) where
  | register (registration : Registration) (ownerIk : Bytes) (tunnel : handle)
  | drop (guard : Nat)
  | deregister (guard : Nat)
  | lookup (sniName : Str)
deriving DecidableEq

namespace System

def new : System handle where
  registry := ⟨∅, 0⟩
  issued := []
  held := ∅
  spawned := ∅

def register (s : System handle) (registration : Registration) (ownerIk : Bytes)
    (tunnel : handle) : System handle :=
  match s.registry.register registration ownerIk tunnel with
  | (Except.error _, registry) => { s with registry := registry }
  | (Except.ok guard, registry) =>
      { s with
        registry := registry
        issued := s.issued ++ [guard]
        held := insert s.issued.length s.held }

def drop (s : System handle) (i : Nat) : System handle :=
  if i ∈ s.held then
    { s with
      held := s.held.erase i
      spawned := insert i s.spawned }
  else
    s

def deregister (s : System handle) (i : Nat) : System handle :=
  if i ∈ s.spawned then
    match s.issued[i]? with
    | none => s
    | some guard =>
        { s with
          registry := s.registry.deregister guard.name guard.generation
          spawned := s.spawned.erase i }
  else
    s

def step (s : System handle) : Event handle -> System handle
  | Event.register registration ownerIk tunnel => s.register registration ownerIk tunnel
  | Event.drop i => s.drop i
  | Event.deregister i => s.deregister i
  | Event.lookup _ => s

/--
The name has an entry, and registration `i` is the last one made for the name.
-/
def IsCurrent (s : System handle) (name : Str) (i : Nat) : Prop :=
  (s.registry.tunnels.lookup name).isSome ∧
    (exists guard, s.issued[i]? = some guard ∧ guard.name = name) ∧
    forall j guard, s.issued[j]? = some guard -> guard.name = name -> j <= i

/-- What one event may do to the registered names. -/
structure StepSafe (s : System handle) (e : Event handle) : Prop where
  /-- A name is lost by its owner only in the deregister of its current registration. -/
  owner : forall name ik, s.registry.owner name = some ik ->
    (step s e).registry.owner name ≠ some ik ->
    exists i, e = Event.deregister i ∧ i ∈ s.spawned ∧ IsCurrent s name i
  /-- A deregister changes no entry but that of its own registration. -/
  entry : forall i, e = Event.deregister i -> forall name,
    (step s e).registry.tunnels.lookup name ≠ s.registry.tunnels.lookup name ->
    IsCurrent s name i

/-- No name is taken from its owner along the run. -/
structure NoHijack (events : List (Event handle)) : Prop where
  steps : Transition.StepsMeet step StepSafe new events
  owners : forall before middle rest name ik ik',
    events = before ++ middle ++ rest ->
    (after step new before).registry.owner name = some ik ->
    (after step new (before ++ middle)).registry.owner name = some ik' ->
    ik ≠ ik' ->
    exists early i late, middle = early ++ Event.deregister i :: late ∧
      (after step new (before ++ early)).registry.owner name = some ik ∧
      i ∈ (after step new (before ++ early)).spawned ∧
      IsCurrent (after step new (before ++ early)) name i
  generations : ((after step new events).issued.map
    RegistrationGuard.generation).Nodup

/-!
# What one event does
-/

theorem register_cases (s : System handle) (registration : Registration) (ownerIk : Bytes)
    (tunnel : handle) :
    (s.registry.OwnedByOther registration.name ownerIk ∧
      s.register registration ownerIk tunnel = s) ∨
    (Not (s.registry.OwnedByOther registration.name ownerIk) ∧
      s.register registration ownerIk tunnel =
        { s with
          registry :=
            { tunnels := s.registry.tunnels.insert registration.name
                { handle := tunnel
                  allowedServices := registration.allowedServices
                  ownerIk := ownerIk
                  generation := s.registry.nextGeneration }
              nextGeneration := s.registry.nextGeneration + 1 }
          issued := s.issued ++ [⟨registration.name, s.registry.nextGeneration⟩]
          held := insert s.issued.length s.held }) := by
  by_cases hother : s.registry.OwnedByOther registration.name ownerIk
  · apply Or.inl
    exact ⟨hother, by simp [register, RegistryState.register, hother]⟩
  · apply Or.inr
    exact ⟨hother, by simp [register, RegistryState.register, hother]⟩

theorem drop_registry (s : System handle) (i : Nat) : (s.drop i).registry = s.registry := by
  unfold drop
  split <;> rfl

theorem drop_issued (s : System handle) (i : Nat) : (s.drop i).issued = s.issued := by
  unfold drop
  split <;> rfl

theorem deregister_issued (s : System handle) (i : Nat) : (s.deregister i).issued = s.issued := by
  unfold deregister
  split
  · split <;> rfl
  · rfl

theorem deregister_nextGeneration (s : System handle) (i : Nat) :
    (s.deregister i).registry.nextGeneration = s.registry.nextGeneration := by
  unfold deregister RegistryState.deregister
  split
  · split
    · rfl
    · dsimp only
      split
      · rfl
      · split <;> rfl
  · rfl

theorem deregister_lookup (s : System handle) (i : Nat) (name : Str) :
    (s.deregister i).registry.tunnels.lookup name = s.registry.tunnels.lookup name ∨
    ((s.deregister i).registry.tunnels.lookup name = none ∧ i ∈ s.spawned ∧
      exists guard existing, s.issued[i]? = some guard ∧ guard.name = name ∧
        s.registry.tunnels.lookup name = some existing ∧
        existing.generation = guard.generation) := by
  by_cases hspawned : i ∈ s.spawned
  · cases hguard : s.issued[i]? with
    | none =>
        apply Or.inl
        simp [deregister, hguard]
    | some guard =>
        cases hentry : s.registry.tunnels.lookup guard.name with
        | none =>
            apply Or.inl
            simp [deregister, hspawned, hguard, RegistryState.deregister, hentry]
        | some existing =>
            by_cases hgen : existing.generation = guard.generation
            · by_cases hname : guard.name = name
              · subst hname
                apply Or.inr
                refine ⟨?_, hspawned, guard, existing, rfl, rfl, hentry, hgen⟩
                simp [deregister, hspawned, hguard, RegistryState.deregister, hentry, hgen]
              · apply Or.inl
                have hother := Finmap.lookup_erase_ne (s := s.registry.tunnels) (Ne.symm hname)
                simp [deregister, hspawned, hguard, RegistryState.deregister, hentry, hgen,
                  hother]
            · apply Or.inl
              simp [deregister, hspawned, hguard, RegistryState.deregister, hentry, hgen]
  · apply Or.inl
    simp [deregister, hspawned]

/-!
# The registrations behind the entries
-/

/--
Guards are numbered by the counter, and every entry is what the last registration of its
name made.  Both hold whether or not the counter has wrapped.
-/
structure Tracked (s : System handle) : Prop where
  next : s.registry.nextGeneration = UInt64.ofNat s.issued.length
  numbered : forall i guard, s.issued[i]? = some guard -> guard.generation = UInt64.ofNat i
  entries : forall name existing, s.registry.tunnels.lookup name = some existing ->
    exists i, IsCurrent s name i ∧ existing.generation = UInt64.ofNat i

theorem tracked_new : Tracked (new : System handle) where
  next := rfl
  numbered := by
    intro i guard h
    simp [new] at h
  entries := by
    intro name existing h
    simp [new] at h

theorem isCurrent_congr {s t : System handle} {name : Str} {i : Nat} (hissued : t.issued = s.issued)
    (hentry : (t.registry.tunnels.lookup name).isSome) (h : IsCurrent s name i) :
    IsCurrent t name i := by
  refine ⟨hentry, ?_, ?_⟩
  · rw [hissued]
    exact h.2.1
  · rw [hissued]
    exact h.2.2

theorem tracked_register {s : System handle} (h : Tracked s) (registration : Registration)
    (ownerIk : Bytes) (tunnel : handle) : Tracked (s.register registration ownerIk tunnel) := by
  rcases register_cases s registration ownerIk tunnel with ⟨_, heq⟩ | ⟨_, heq⟩
  · rw [heq]
    exact h
  · rw [heq]
    refine ⟨?_, ?_, ?_⟩
    · rw [List.length_append, List.length_singleton, UInt64.ofNat_add, <- h.next]
      rfl
    · intro i guard hguard
      rw [List.getElem?_append] at hguard
      split at hguard
      · exact h.numbered i guard hguard
      · rename_i hge
        have hlast := List.getElem?_eq_some_iff.mp hguard
        rcases hlast with ⟨hlt, hval⟩
        rw [List.length_singleton] at hlt
        have hi : i = s.issued.length := by omega
        subst hi
        simp only [Nat.sub_self, List.getElem_cons_zero] at hval
        rw [<- hval]
        exact h.next
    · intro name existing hentry
      rcases FiniteMap.lookup_insert_eq_some.mp hentry with ⟨hname, hexisting⟩ | ⟨hname, hold⟩
      · refine ⟨s.issued.length, ⟨?_, ⟨_, List.getElem?_concat_length, hname.symm⟩, ?_⟩, ?_⟩
        · rw [hentry]
          rfl
        · intro j guard hguard _
          rcases List.getElem?_eq_some_iff.mp hguard with ⟨hlt, _⟩
          rw [List.length_append, List.length_singleton] at hlt
          omega
        · rw [hexisting]
          exact h.next
      · rcases h.entries name existing hold with ⟨i, hcurrent, hgen⟩
        rcases hcurrent with ⟨_, ⟨guard, hguard, hguardname⟩, hlatest⟩
        refine ⟨i, ⟨?_, ⟨guard, ?_, hguardname⟩, ?_⟩, hgen⟩
        · rw [hentry]
          rfl
        · rcases List.getElem?_eq_some_iff.mp hguard with ⟨hlt, _⟩
          rw [List.getElem?_append_left hlt]
          exact hguard
        · intro j later hlater hlatername
          rw [List.getElem?_append] at hlater
          split at hlater
          · exact hlatest j later hlater hlatername
          · rcases List.getElem?_eq_some_iff.mp hlater with ⟨hlt, hval⟩
            rw [List.length_singleton] at hlt
            have hj : j - s.issued.length = 0 := by omega
            simp only [hj, List.getElem_cons_zero] at hval
            rw [<- hval] at hlatername
            exact absurd hlatername.symm hname

theorem tracked_step {s : System handle} (h : Tracked s) (e : Event handle) :
    Tracked (step s e) := by
  cases e with
  | register registration ownerIk tunnel =>
      exact tracked_register h registration ownerIk tunnel
  | drop i =>
      refine ⟨?_, ?_, ?_⟩
      · rw [step, drop_registry, drop_issued]
        exact h.next
      · rw [step, drop_issued]
        exact h.numbered
      · intro name existing hentry
        rw [step, drop_registry] at hentry
        rcases h.entries name existing hentry with ⟨i, hcurrent, hgen⟩
        refine ⟨i, isCurrent_congr (drop_issued _ _) ?_ hcurrent, hgen⟩
        rw [step, drop_registry]
        exact hcurrent.1
  | deregister i =>
      refine ⟨?_, ?_, ?_⟩
      · rw [step, deregister_nextGeneration, deregister_issued]
        exact h.next
      · rw [step, deregister_issued]
        exact h.numbered
      · intro name existing hentry
        have hsome : ((s.deregister i).registry.tunnels.lookup name).isSome := by
          rw [show (s.deregister i).registry.tunnels.lookup name = some existing from hentry]
          rfl
        rcases deregister_lookup s i name with hsame | ⟨hnone, _⟩
        · rw [step, hsame] at hentry
          rcases h.entries name existing hentry with ⟨j, hcurrent, hgen⟩
          exact ⟨j, isCurrent_congr (deregister_issued s i) hsome hcurrent, hgen⟩
        · rw [hnone] at hsome
          cases hsome
  | lookup sniName => exact h

theorem tracked_after {s : System handle} (h : Tracked s) (events : List (Event handle)) :
    Tracked (after step s events) := by
  have hstep : forall (t : System handle) e, Tracked t -> True -> Tracked (step t e) := by
    intro t e ht _
    exact tracked_step ht e
  exact invariant_after hstep h (stepsMeet_true step s events)

theorem issued_length_step (s : System handle) (e : Event handle) :
    s.issued.length <= (step s e).issued.length := by
  cases e with
  | register registration ownerIk tunnel =>
      rcases register_cases s registration ownerIk tunnel with ⟨_, heq⟩ | ⟨_, heq⟩
      · rw [step, heq]
      · rw [step, heq, List.length_append]
        exact Nat.le_add_right _ _
  | drop i => rw [step, drop_issued]
  | deregister i => rw [step, deregister_issued]
  | lookup sniName => exact Nat.le_refl _

theorem issued_length_after (s : System handle) (events : List (Event handle)) :
    s.issued.length <= (after step s events).issued.length := by
  induction events generalizing s with
  | nil => exact Nat.le_refl _
  | cons e rest ih => exact Nat.le_trans (issued_length_step s e) (ih (step s e))

/-!
# Nobody loses a name to another

While the counter has not gone round, a generation names one registration, so a task that
finds its own generation has found its own registration.
-/

theorem ofNat_inj_of_le {n i j : Nat} (hn : n <= 2 ^ 64) (hi : i < n) (hj : j < n)
    (h : UInt64.ofNat i = UInt64.ofNat j) : i = j := by
  have hsize : n <= UInt64.size := hn
  have hval : (UInt64.ofNat i).toNat = (UInt64.ofNat j).toNat := by rw [h]
  rw [UInt64.toNat_ofNat_of_lt' (Nat.lt_of_lt_of_le hi hsize),
    UInt64.toNat_ofNat_of_lt' (Nat.lt_of_lt_of_le hj hsize)] at hval
  exact hval

theorem isCurrent_of_deregister {s : System handle} (h : Tracked s)
    (hfew : s.issued.length <= 2 ^ 64) {i : Nat} {name : Str}
    (hchanged : (s.deregister i).registry.tunnels.lookup name ≠ s.registry.tunnels.lookup name) :
    i ∈ s.spawned ∧ IsCurrent s name i := by
  rcases deregister_lookup s i name with hsame | ⟨_, hspawned, guard, existing, hguard, _,
    hentry, hgen⟩
  · exact absurd hsame hchanged
  · rcases h.entries name existing hentry with ⟨j, hcurrent, hnumber⟩
    have hij : j = i := by
      rcases hcurrent.2.1 with ⟨last, hlast, _⟩
      rcases List.getElem?_eq_some_iff.mp hlast with ⟨hj, _⟩
      rcases List.getElem?_eq_some_iff.mp hguard with ⟨hi, _⟩
      apply ofNat_inj_of_le hfew hj hi
      rw [<- hnumber, hgen]
      exact h.numbered i guard hguard
    subst hij
    exact ⟨hspawned, hcurrent⟩

theorem owner_register {s : System handle} {registration : Registration} {ownerIk : Bytes}
    {tunnel : handle} {name : Str} {ik : Bytes} (h : s.registry.owner name = some ik) :
    (s.register registration ownerIk tunnel).registry.owner name = some ik := by
  rcases register_cases s registration ownerIk tunnel with ⟨_, heq⟩ | ⟨hown, heq⟩
  · rw [heq]
    exact h
  · rw [heq]
    rcases RegistryState.owner_eq_some.mp h with ⟨existing, hentry, hik⟩
    rw [RegistryState.owner_eq_some]
    by_cases hname : name = registration.name
    · subst hname
      refine ⟨_, FiniteMap.lookup_insert_eq_some.mpr (Or.inl ⟨rfl, rfl⟩), ?_⟩
      by_contra hne
      apply hown
      refine ⟨existing, hentry, ?_⟩
      rw [hik]
      exact fun heq => hne heq.symm
    · exact ⟨existing, FiniteMap.lookup_insert_eq_some.mpr (Or.inr ⟨hname, hentry⟩), hik⟩

theorem stepSafe_of_tracked {s : System handle} (h : Tracked s)
    (hfew : s.issued.length <= 2 ^ 64) (e : Event handle) : StepSafe s e where
  owner := by
    intro name ik howner hlost
    cases e with
    | register registration ownerIk tunnel => exact absurd (owner_register howner) hlost
    | drop i =>
        rw [step, drop_registry] at hlost
        exact absurd howner hlost
    | deregister i =>
        have hchanged : (s.deregister i).registry.tunnels.lookup name ≠
            s.registry.tunnels.lookup name := by
          intro hsame
          apply hlost
          rw [RegistryState.owner, step, hsame]
          exact howner
        rcases isCurrent_of_deregister h hfew hchanged with ⟨hspawned, hcurrent⟩
        exact ⟨i, rfl, hspawned, hcurrent⟩
    | lookup sniName => exact absurd howner hlost
  entry := by
    intro i he name hchanged
    subst he
    exact (isCurrent_of_deregister h hfew hchanged).2

theorem stepsSafe_of_tracked {s : System handle} (h : Tracked s) (events : List (Event handle))
    (hfew : (after step s events).issued.length <= 2 ^ 64) :
    Transition.StepsMeet step StepSafe s events := by
  induction events generalizing s with
  | nil => trivial
  | cons e rest ih =>
      constructor
      · exact stepSafe_of_tracked h
          (Nat.le_trans (issued_length_after s (e :: rest)) hfew) e
      · exact ih (tracked_step h e) hfew

theorem exists_deregister_of_owner_ne {s : System handle} {name : Str} {ik ik' : Bytes}
    (events : List (Event handle)) (hsafe : Transition.StepsMeet step StepSafe s events)
    (hbefore : s.registry.owner name = some ik)
    (hafter : (after step s events).registry.owner name = some ik') (hne : ik ≠ ik') :
    exists early i late, events = early ++ Event.deregister i :: late ∧
      (after step s early).registry.owner name = some ik ∧
      i ∈ (after step s early).spawned ∧
      IsCurrent (after step s early) name i := by
  induction events generalizing s with
  | nil =>
      have hsame : some ik = some ik' := hbefore.symm.trans hafter
      cases hsame
      exact absurd rfl hne
  | cons e rest ih =>
      by_cases hkeep : (step s e).registry.owner name = some ik
      · rcases ih hsafe.2 hkeep hafter with ⟨early, i, late, heq, hrest⟩
        refine ⟨e :: early, i, late, ?_, hrest⟩
        rw [heq]
        rfl
      · rcases hsafe.1.owner name ik hbefore hkeep with ⟨i, he, hspawned, hcurrent⟩
        subst he
        exact ⟨[], i, rest, rfl, hbefore, hspawned, hcurrent⟩

theorem nodup_generations {s : System handle} (h : Tracked s) (hfew : s.issued.length <= 2 ^ 64) :
    (s.issued.map RegistrationGuard.generation).Nodup := by
  rw [List.nodup_iff_injective_get]
  intro a b hab
  have hlen : (s.issued.map RegistrationGuard.generation).length = s.issued.length :=
    List.length_map RegistrationGuard.generation
  have hgen : forall k : Fin (s.issued.map RegistrationGuard.generation).length,
      (s.issued.map RegistrationGuard.generation).get k = UInt64.ofNat k := by
    intro k
    have hk : k.val < s.issued.length := by
      rw [<- hlen]
      exact k.isLt
    simp only [List.get_eq_getElem, List.getElem_map]
    exact h.numbered k _ (List.getElem?_eq_getElem hk)
  rw [hgen a, hgen b] at hab
  apply Fin.ext
  exact ofNat_inj_of_le hfew (hlen ▸ a.isLt) (hlen ▸ b.isLt) hab

/--
In any order of registrations and of the tasks of dropped guards: as long as no more than
`2 ^ 64` registrations have succeeded, a name changes hands only after the task of its
current registration ran, no task touches a registration but its own, and the generations
handed out are all different.
-/
theorem no_tunnel_hijack (events : List (Event handle))
    (hfew : (after step (new : System handle) events).issued.length <= 2 ^ 64) :
    NoHijack events where
  steps := stepsSafe_of_tracked tracked_new events hfew
  owners := by
    intro before middle rest name ik ik' hevents hbefore hmiddle hne
    have htracked : Tracked (after step (new : System handle) before) :=
      tracked_after tracked_new before
    rw [hevents, after_append, after_append] at hfew
    have hfew' := Nat.le_trans (issued_length_after _ rest) hfew
    rw [after_append] at hmiddle
    rcases exists_deregister_of_owner_ne middle
      (stepsSafe_of_tracked htracked middle hfew') hbefore hmiddle hne with
      ⟨early, i, late, heq, hrest⟩
    refine ⟨early, i, late, heq, ?_⟩
    rw [after_append]
    exact hrest
  generations := nodup_generations (tracked_after tracked_new events) hfew

/-- A box registers, another is refused until the task of the dropped guard ran. -/
def handover : List (Event Nat) :=
  [Event.register ⟨"box".toList, {"443".toList}⟩ [1] 10,
    Event.register ⟨"box".toList, {"443".toList}⟩ [2] 20, Event.drop 0,
    Event.deregister 0, Event.register ⟨"box".toList, {"443".toList}⟩ [2] 20]

theorem no_tunnel_hijack_handover :
    (after step new handover).issued.length <= 2 ^ 64 ∧ NoHijack handover :=
  ⟨by decide, no_tunnel_hijack handover (by decide)⟩

/-!
# When the counter has gone round
-/

def boxName : Str := "box".toList

def refresh : Event Nat :=
  Event.register ⟨boxName, ∅⟩ [1] 0

/-- What `k` registrations leave. -/
structure Refreshed (s : System Nat) (k : Nat) : Prop where
  tracked : Tracked s
  count : s.issued.length = k
  names : forall guard, guard ∈ s.issued -> guard.name = boxName
  held : forall i, i < k -> i ∈ s.held
  entry : 0 < k -> (s.registry.tunnels.lookup boxName).isSome
  owner : Not (s.registry.OwnedByOther boxName [1])

theorem refreshed_step {s : System Nat} {k : Nat} (h : Refreshed s k) :
    Refreshed (step s refresh) (k + 1) := by
  rcases register_cases s ⟨boxName, ∅⟩ [1] 0 with ⟨hother, _⟩ | ⟨_, heq⟩
  · exact absurd hother h.owner
  · have htracked := tracked_step h.tracked refresh
    have hstep : step s refresh = s.register ⟨boxName, ∅⟩ [1] 0 := rfl
    rw [hstep, heq] at htracked ⊢
    refine ⟨htracked, ?_, ?_, ?_, ?_, ?_⟩
    · rw [List.length_append, h.count]
      rfl
    · intro guard hguard
      rcases List.mem_append.mp hguard with hold | hnew
      · exact h.names guard hold
      · rw [List.mem_singleton.mp hnew]
    · intro i hi
      rw [Finset.mem_insert, h.count]
      rcases Nat.lt_succ_iff_lt_or_eq.mp hi with hlt | hlast
      · exact Or.inr (h.held i hlt)
      · exact Or.inl hlast
    · intro _
      rw [Finmap.lookup_insert]
      rfl
    · intro hother
      rcases hother with ⟨existing, hentry, hne⟩
      rw [Finmap.lookup_insert] at hentry
      cases hentry
      exact hne rfl

theorem refreshed_after (k : Nat) : Refreshed (after step new (List.replicate k refresh)) k := by
  induction k with
  | zero =>
      refine ⟨tracked_new, rfl, ?_, ?_, ?_, ?_⟩
      · intro guard h
        simp [after, new] at h
      · intro i hi
        exact absurd hi (Nat.not_lt_zero i)
      · intro h
        exact absurd h (Nat.lt_irrefl 0)
      · intro h
        rcases h with ⟨existing, hentry, _⟩
        simp [after, new] at hentry
  | succ k ih =>
      rw [List.replicate_succ', after_append]
      exact refreshed_step ih

theorem Refreshed.isCurrent {s : System Nat} {k : Nat} (h : Refreshed s (k + 1)) :
    IsCurrent s boxName k := by
  have hlast : k < s.issued.length := by
    rw [h.count]
    exact Nat.lt_succ_self k
  refine ⟨h.entry (Nat.succ_pos k), ⟨_, List.getElem?_eq_getElem hlast, ?_⟩, ?_⟩
  · exact h.names _ (List.getElem_mem hlast)
  · intro j guard hguard _
    rcases List.getElem?_eq_some_iff.mp hguard with ⟨hj, _⟩
    rw [h.count] at hj
    exact Nat.le_of_lt_succ hj

theorem Refreshed.removed {s : System Nat} {k : Nat} (h : Refreshed s (k + 1))
    (hwrap : UInt64.ofNat k = 0) :
    (step (step s (Event.drop 0)) (Event.deregister 0)).registry.tunnels.lookup boxName = none := by
  rcases Option.isSome_iff_exists.mp (h.entry (Nat.succ_pos k)) with ⟨existing, hentry⟩
  have hfirst : 0 < s.issued.length := by
    rw [h.count]
    exact Nat.succ_pos k
  have hguard := List.getElem?_eq_getElem hfirst
  have hname := h.names _ (List.getElem_mem hfirst)
  have hgen : existing.generation = s.issued[0].generation := by
    rcases h.tracked.entries _ existing hentry with ⟨i, hcurrent, hnumber⟩
    have hik : i = k := by
      rcases hcurrent.2.1 with ⟨guard, hi, _⟩
      rcases List.getElem?_eq_some_iff.mp hi with ⟨hlt, _⟩
      have hle := hcurrent.2.2 k _ h.isCurrent.2.1.choose_spec.1
        h.isCurrent.2.1.choose_spec.2
      rw [h.count] at hlt
      omega
    rw [hnumber, hik, hwrap, h.tracked.numbered 0 _ hguard]
    rfl
  have hdrop : step s (Event.drop 0) =
      { s with held := s.held.erase 0, spawned := insert 0 s.spawned } := by
    rw [step, drop, if_pos (h.held 0 (Nat.succ_pos k))]
  rw [hdrop]
  generalize s.issued[0] = first at hguard hname hgen
  rw [<- hname] at hentry ⊢
  simp [step, deregister, hguard, RegistryState.deregister, hentry, hgen]

theorem Refreshed.generations_repeat {s : System Nat} {k : Nat} (h : Refreshed s (k + 1))
    (hpos : 0 < k) (hwrap : UInt64.ofNat k = 0) :
    Not (s.issued.map RegistrationGuard.generation).Nodup := by
  intro hnodup
  have hlen : (s.issued.map RegistrationGuard.generation).length = k + 1 := by
    rw [List.length_map, h.count]
  have hgen : forall (i : Nat) (hi : i < (s.issued.map RegistrationGuard.generation).length),
      (s.issued.map RegistrationGuard.generation)[i] = UInt64.ofNat i := by
    intro i hi
    rw [List.length_map] at hi
    rw [List.getElem_map]
    exact h.tracked.numbered i _ (List.getElem?_eq_getElem hi)
  have hfirst : 0 < (s.issued.map RegistrationGuard.generation).length := by omega
  have hlast : k < (s.issued.map RegistrationGuard.generation).length := by omega
  have hsame : 0 = k := by
    apply hnodup.getElem_inj_iff.mp
    rw [hgen 0 hfirst, hgen k hlast, hwrap]
    rfl
  omega

theorem removed_of_wrap {k : Nat} (hpos : 0 < k) (hwrap : UInt64.ofNat k = 0) :
    IsCurrent (after step new (List.replicate (k + 1) refresh)) boxName k ∧
    (after step new (List.replicate (k + 1) refresh ++
      [Event.drop 0, Event.deregister 0])).registry.tunnels.lookup boxName = none ∧
    Not (NoHijack (List.replicate (k + 1) refresh ++
      [Event.drop 0, Event.deregister 0])) := by
  have h := refreshed_after (k + 1)
  refine ⟨h.isCurrent, ?_, ?_⟩
  · rw [after_append]
    exact h.removed hwrap
  · intro hsafe
    apply h.generations_repeat hpos hwrap
    have hgenerations := hsafe.generations
    rw [after_append] at hgenerations
    have hissued : (after step
        (after step new (List.replicate (k + 1) refresh))
        [Event.drop 0, Event.deregister 0]).issued =
        (after step new (List.replicate (k + 1) refresh)).issued := by
      exact (deregister_issued _ 0).trans (drop_issued _ 0)
    rw [hissued] at hgenerations
    exact hgenerations

/--
The registration after `2 ^ 64` others has the generation of the first, so the task of the
first one's guard removes it.
-/
theorem old_task_removes_newer :
    IsCurrent (after step new (List.replicate (2 ^ 64 + 1) refresh))
      boxName (2 ^ 64) ∧
    (after step new (List.replicate (2 ^ 64 + 1) refresh ++
      [Event.drop 0, Event.deregister 0])).registry.tunnels.lookup boxName = none ∧
    Not (NoHijack (List.replicate (2 ^ 64 + 1) refresh ++
      [Event.drop 0, Event.deregister 0])) :=
  removed_of_wrap (Nat.two_pow_pos 64) (by decide)

end System
end Tunnel
end Reachability
end Ephor
