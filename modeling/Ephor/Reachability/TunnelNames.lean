import Ephor.Reachability.Tunnel

/-!
# Spellings of a tunnel's name

DNS names are the same whatever their case.  `lookup` folds the name it is asked for;
`register` and `deregister` use the name of the registration as it was sent.
-/

namespace Ephor
namespace Reachability
namespace Tunnel

open Foundation
open Foundation.Text

variable {handle : Type}

structure CaseInsensitive (state : RegistryState handle) : Prop where
  finds : forall name existing, state.tunnels.lookup name = some existing ->
    forall spelling, lower spelling = lower name ->
      state.lookup spelling = some ⟨existing.handle, existing.allowedServices⟩
  oneOwner : forall name name' ik ik', state.owner name = some ik ->
    state.owner name' = some ik' -> lower name = lower name' -> ik = ik'

def Registers (names : Set Str) (events : List (Event handle)) : Prop :=
  forall registration ownerIk tunnel,
    Event.register registration ownerIk tunnel ∈ events -> registration.name ∈ names

def Folded (state : RegistryState handle) : Prop :=
  forall name existing, state.tunnels.lookup name = some existing -> lower name = name

theorem Folded.caseInsensitive {state : RegistryState handle} (h : Folded state) :
    CaseInsensitive state where
  finds := by
    intro name existing hname spelling hspelling
    rw [RegistryState.lookup, hspelling, h name existing hname, hname]
    rfl
  oneOwner := by
    intro name name' ik ik' hname hname' hsame
    rcases RegistryState.owner_eq_some.mp hname with ⟨t, ht, hik⟩
    rcases RegistryState.owner_eq_some.mp hname' with ⟨t', ht', hik'⟩
    rw [h name t ht, h name' t' ht'] at hsame
    rw [hsame, ht'] at ht
    injection ht with ht
    rw [<- hik, <- hik', ht]

namespace System

theorem folded_register {s : System handle} (h : Folded s.registry)
    {registration : Registration} (hlower : lower registration.name = registration.name)
    (ownerIk : Bytes) (tunnel : handle) :
    Folded (s.register registration ownerIk tunnel).registry := by
  rcases register_cases s registration ownerIk tunnel with ⟨_, heq⟩ | ⟨_, heq⟩
  · rw [heq]
    exact h
  · rw [heq]
    intro name existing hentry
    rcases FiniteMap.lookup_insert_eq_some.mp hentry with ⟨hname, _⟩ | ⟨_, hold⟩
    · rw [hname]
      exact hlower
    · exact h name existing hold

theorem folded_step {s : System handle} (h : Folded s.registry) {e : Event handle}
    (hlower : forall registration ownerIk tunnel,
      e = Event.register registration ownerIk tunnel ->
      lower registration.name = registration.name) : Folded (step s e).registry := by
  cases e with
  | register registration ownerIk tunnel =>
      exact folded_register h (hlower registration ownerIk tunnel rfl) ownerIk tunnel
  | drop i =>
      rw [step, drop_registry]
      exact h
  | deregister i =>
      intro name existing hentry
      rcases deregister_lookup s i name with hsame | ⟨hnone, _⟩
      · rw [step, hsame] at hentry
        exact h name existing hentry
      · rw [step, hnone] at hentry
        cases hentry
  | lookup sniName => exact h

theorem folded_after {names : Set Str} (hlower : forall name, name ∈ names -> lower name = name)
    {s : System handle} (h : Folded s.registry) {events : List (Event handle)}
    (hnames : Registers names events) : Folded (Transition.after step s events).registry := by
  refine Transition.invariant_of_mem (fun s : System handle => Folded s.registry) ?_ h
  intro s e he hs
  apply folded_step hs
  intro registration ownerIk tunnel heq
  exact hlower _ (hnames registration ownerIk tunnel (heq ▸ he))

theorem lost_after_register {name : Str} (h : lower name ≠ name) (tunnel : handle) :
    exists existing,
      (step new (Event.register ⟨name, ∅⟩ [] tunnel)).registry.tunnels.lookup name =
        some existing ∧
      (step new (Event.register ⟨name, ∅⟩ [] tunnel)).registry.lookup name = none := by
  rcases register_cases new ⟨name, ∅⟩ [] tunnel with ⟨hother, _⟩ | ⟨_, heq⟩
  · rcases hother with ⟨existing, hlookup, _⟩
    cases hlookup
  · rw [step, heq]
    refine ⟨_, Finmap.lookup_insert _, ?_⟩
    rw [RegistryState.lookup, Finmap.lookup_insert_of_ne _ h]
    rfl

end System

/--
The spellings of every registered name stand for one tunnel of one owner in all runs over a
set of names just when no name of the set has a letter in upper case.
-/
theorem caseInsensitive_iff (tunnel : handle) (names : Set Str) :
    (forall events : List (Event handle), Registers names events ->
      CaseInsensitive (Transition.after System.step System.new events).registry) <->
    forall name, name ∈ names -> lower name = name := by
  constructor
  · intro hruns name hname
    by_contra hupper
    have hregisters : Registers names [Event.register ⟨name, ∅⟩ [] tunnel] := by
      intro registration ownerIk t hmem
      cases List.mem_singleton.mp hmem
      exact hname
    rcases System.lost_after_register hupper tunnel with ⟨existing, hlive, hlost⟩
    have hfound := (hruns _ hregisters).finds name existing hlive name rfl
    have hnone : (Transition.after System.step System.new
        [Event.register ⟨name, ∅⟩ [] tunnel]).registry.lookup name = none := hlost
    rw [hnone] at hfound
    cases hfound
  · intro hlower events hnames
    apply Folded.caseInsensitive
    apply System.folded_after hlower _ hnames
    intro name existing hentry
    cases hentry

def twoSpellings : List (Event Nat) :=
  [Event.register ⟨"Box".toList, ∅⟩ [0x01] 1, Event.register ⟨"box".toList, ∅⟩ [0x02] 2]

theorem lower_case_name_is_found :
    forall events : List (Event Nat), Registers {"box".toList} events ->
      CaseInsensitive (Transition.after System.step System.new events).registry :=
  (caseInsensitive_iff 1 _).mpr (by
    rintro _ rfl
    decide +kernel)

/-- A tunnel is not found under the name it registered, and two identities hold two
spellings of one name. -/
theorem spellings_are_two_names :
    (Transition.after System.step System.new (twoSpellings.take 1)).registry.lookup
        "Box".toList = none ∧
      (Transition.after System.step System.new twoSpellings).registry.owner "Box".toList =
        some [0x01] ∧
      (Transition.after System.step System.new twoSpellings).registry.owner "box".toList =
        some [0x02] ∧
      Not (CaseInsensitive (Transition.after System.step System.new twoSpellings).registry) := by
  have howner : (Transition.after System.step System.new twoSpellings).registry.owner
      "Box".toList = some [0x01] := by
    decide +kernel
  have howner' : (Transition.after System.step System.new twoSpellings).registry.owner
      "box".toList = some [0x02] := by
    decide +kernel
  refine ⟨by decide +kernel, howner, howner', ?_⟩
  intro h
  have hsame := h.oneOwner "Box".toList "box".toList [0x01] [0x02] howner howner'
    (by decide +kernel)
  cases hsame

end Tunnel
end Reachability
end Ephor
