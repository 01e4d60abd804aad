import Ephor.Gateway.Spf

/-!
# What SPF evaluation comes to

When a mechanism matches, what the loop over the mechanisms of a record comes to, and what a
record and a domain do.  A mechanism that ends the evaluation without a match does so with an
error.
-/

namespace Ephor
namespace Gateway
namespace Spf

/-!
# Networks
-/

/-- The addresses agree in their first bits. -/
def SamePrefix {width : Nat} (bits : Nat) (a b : BitVec width) : Prop :=
  forall i, i < bits -> a.getMsbD i = b.getMsbD i

theorem getMsbD_mask {width : Nat} (c i : Nat) (hi : i < width) :
    (if c = width then BitVec.allOnes width else ~~~(BitVec.allOnes width >>> c)).getMsbD i =
      decide (i < c) := by
  split
  · rename_i hc
    rw [BitVec.getMsbD_allOnes, hc]
  · rw [BitVec.getMsbD_not, BitVec.getMsbD_ushiftRight, BitVec.getMsbD_allOnes]
    by_cases hlt : i < c
    · simp [hlt, hi]
    · simp [hlt, hi, show i - c < width by omega]

theorem inCidr_iff {width : Nat} (ip net : BitVec width) (cidr : Nat) :
    inCidr ip net cidr = true <-> SamePrefix cidr ip net := by
  unfold inCidr
  by_cases hzero : cidr = 0
  · rw [if_pos hzero, hzero]
    exact iff_of_true rfl fun i hi => absurd hi (Nat.not_lt_zero i)
  · rw [if_neg hzero]
    rw [decide_eq_true_iff]
    constructor
    · intro h i hi
      by_cases hwidth : i < width
      · have hbit := congrArg (fun x => x.getMsbD i) h
        rw [BitVec.getMsbD_and, BitVec.getMsbD_and, getMsbD_mask _ i hwidth,
          decide_eq_true (Nat.lt_min.mpr ⟨hi, hwidth⟩), Bool.and_true, Bool.and_true] at hbit
        exact hbit
      · rw [BitVec.getMsbD_of_ge ip i (Nat.not_lt.mp hwidth),
          BitVec.getMsbD_of_ge net i (Nat.not_lt.mp hwidth)]
    · intro h
      apply BitVec.eq_of_getMsbD_eq
      intro i hi
      rw [BitVec.getMsbD_and, BitVec.getMsbD_and, getMsbD_mask _ i hi]
      by_cases hcidr : i < min cidr width
      · rw [h i (Nat.lt_min.mp hcidr).1]
      · rw [decide_eq_false hcidr, Bool.and_false, Bool.and_false]

variable {ev : Evaluator}

namespace Evaluator

/-!
# Errors
-/

def IsError (result : SpfResult) : Prop :=
  result = SpfResult.tempError ∨ result = SpfResult.permError

/-- An outcome that aborts does so with an error. -/
def Errs (outcome : MechOutcome) : Prop :=
  forall result, outcome = MechOutcome.abort result -> IsError result

theorem errs_match : Errs MechOutcome.match := by
  intro result h
  cases h

theorem errs_noMatch : Errs MechOutcome.noMatch := by
  intro result h
  cases h

theorem errs_abort {result : SpfResult} (h : IsError result) : Errs (MechOutcome.abort result) := by
  intro other hother
  cases hother
  exact h

theorem chargeLookup_error {after : Evaluator} {e : SpfResult}
    (h : ev.chargeLookup = (Except.error e, after)) : IsError e := by
  unfold chargeLookup at h
  dsimp only at h
  split at h
  · cases h
    exact Or.inr rfl
  · cases h

theorem errs_matchVoid (ev : Evaluator) : Errs ev.matchVoid.1 := by
  unfold matchVoid chargeVoid
  dsimp only
  by_cases hmax : ev.voidLookups + 1 > defaultMaxVoidLookups
  · rw [if_pos hmax]
    exact errs_abort (Or.inr rfl)
  · rw [if_neg hmax]
    exact errs_noMatch

theorem errs_matchAnswer {address : Type} (ev : Evaluator)
    (answer : Except Unit (List address)) (accepts : address -> Bool) :
    Errs (ev.matchAnswer answer accepts).1 := by
  unfold matchAnswer
  cases answer with
  | error e => exact errs_abort (Or.inl rfl)
  | ok ips =>
      dsimp only
      split
      · exact errs_matchVoid ev
      · split
        · exact errs_match
        · exact errs_noMatch

theorem errs_includeOutcome (result : SpfResult) : Errs (includeOutcome result) := by
  cases result with
  | pass => exact errs_match
  | fail | softFail | neutral => exact errs_noMatch
  | tempError => exact errs_abort (Or.inl rfl)
  | none | permError => exact errs_abort (Or.inr rfl)

theorem errs_test (accepted : Bool) :
    Errs (if accepted then MechOutcome.match else MechOutcome.noMatch) := by
  cases accepted with
  | true => exact errs_match
  | false => exact errs_noMatch

variable (resolver : SpfResolver) (ip : IpAddr)

theorem errs_matchAddressLookup (ev : Evaluator) (target : Str) (cidr4 cidr6 : Nat) :
    Errs (matchAddressLookup resolver ip ev target cidr4 cidr6).1 := by
  cases ip with
  | v4 v4 | v6 v6 => exact errs_matchAnswer _ _ _

theorem errs_matchHosts (cidr4 cidr6 : Nat) (hosts : List Str) (ev : Evaluator) :
    Errs (matchHosts resolver ip cidr4 cidr6 hosts ev).1 := by
  induction hosts generalizing ev with
  | nil => exact errs_noMatch
  | cons host hosts ih =>
      rw [matchHosts]
      split
      · rename_i e after hcharge
        exact errs_abort (chargeLookup_error hcharge)
      · rename_i paid hcharge
        have hlookup := errs_matchAddressLookup resolver ip paid (normalize host) cidr4 cidr6
        generalize matchAddressLookup resolver ip paid (normalize host) cidr4 cidr6 = run
          at hlookup
        rcases run with ⟨outcome, after⟩
        cases outcome with
        | «match» | abort r => exact hlookup
        | noMatch => exact ih after

theorem errs_evalMechanism (recurse : Evaluator -> Str -> SpfResult × Evaluator)
    (ev : Evaluator) (m : Mechanism) (currentDomain : Str) :
    Errs (evalMechanism resolver ip recurse ev m currentDomain).1 := by
  cases m with
  | all => exact errs_match
  | «include» target =>
      rw [evalMechanism]
      split
      · rename_i e after hcharge
        exact errs_abort (chargeLookup_error hcharge)
      · exact errs_includeOutcome _
  | ip4 net cidr =>
      cases ip with
      | v4 v4 => exact errs_test (inCidr v4 net cidr)
      | v6 v6 => exact errs_noMatch
  | ip6 net cidr =>
      cases ip with
      | v4 v4 => exact errs_noMatch
      | v6 v6 => exact errs_test (inCidr v6 net cidr)
  | a domain cidr4 cidr6 =>
      rw [evalMechanism]
      split
      · rename_i e after hcharge
        exact errs_abort (chargeLookup_error hcharge)
      · exact errs_matchAddressLookup resolver ip _ _ cidr4 cidr6
  | mx domain cidr4 cidr6 =>
      rw [evalMechanism]
      split
      · rename_i e after hcharge
        exact errs_abort (chargeLookup_error hcharge)
      · dsimp only
        split
        · exact errs_abort (Or.inl rfl)
        · split
          · exact errs_matchVoid _
          · exact errs_matchHosts resolver ip cidr4 cidr6 _ _
  | ptr =>
      rw [evalMechanism]
      split
      · rename_i e after hcharge
        exact errs_abort (chargeLookup_error hcharge)
      · exact errs_noMatch
  | «exists» target =>
      rw [evalMechanism]
      split
      · rename_i e after hcharge
        exact errs_abort (chargeLookup_error hcharge)
      · exact errs_matchAnswer _ _ _

/-!
# Matches
-/

theorem matchVoid_ne_match (ev : Evaluator) : ev.matchVoid.1 ≠ MechOutcome.match := by
  intro h
  unfold matchVoid chargeVoid at h
  dsimp only at h
  by_cases hmax : ev.voidLookups + 1 > defaultMaxVoidLookups
  · rw [if_pos hmax] at h
    cases h
  · rw [if_neg hmax] at h
    cases h

theorem matchAnswer_eq_match {address : Type} {answer : Except Unit (List address)}
    {accepts : address -> Bool} :
    (ev.matchAnswer answer accepts).1 = MechOutcome.match <->
      exists ips a, answer = Except.ok ips ∧ a ∈ ips ∧ accepts a = true := by
  unfold matchAnswer
  cases answer with
  | error e =>
      constructor
      · intro h
        cases h
      · intro h
        rcases h with ⟨ips, a, hips, _⟩
        cases hips
  | ok ips =>
      dsimp only
      by_cases hvoid : ips.isEmpty = true
      · rw [if_pos hvoid, List.isEmpty_iff.mp hvoid]
        constructor
        · intro h
          exact absurd h (matchVoid_ne_match ev)
        · intro h
          rcases h with ⟨others, a, hothers, ha, _⟩
          cases hothers
          cases ha
      · rw [if_neg hvoid]
        by_cases hany : ips.any accepts = true
        · rw [if_pos hany]
          rcases List.any_eq_true.mp hany with ⟨a, ha, haccepts⟩
          exact ⟨fun _ => ⟨ips, a, rfl, ha, haccepts⟩, fun _ => rfl⟩
        · rw [if_neg hany]
          constructor
          · intro h
            cases h
          · intro h
            rcases h with ⟨others, a, hothers, ha, haccepts⟩
            cases hothers
            exact absurd (List.any_eq_true.mpr ⟨a, ha, haccepts⟩) hany

/-- The target has an address of the family of the peer in the network of the peer. -/
inductive AddressWithin (ev : Evaluator) (target : Str) (cidr4 cidr6 : Nat) : Prop where
  | v4 {v4 : BitVec 32} {ips : List (BitVec 32)} {a : BitVec 32} :
      ip = IpAddr.v4 v4 -> resolver.lookupA ev.calls target = Except.ok ips -> a ∈ ips ->
        SamePrefix cidr4 v4 a -> AddressWithin ev target cidr4 cidr6
  | v6 {v6 : BitVec 128} {ips : List (BitVec 128)} {a : BitVec 128} :
      ip = IpAddr.v6 v6 -> resolver.lookupAaaa ev.calls target = Except.ok ips -> a ∈ ips ->
        SamePrefix cidr6 v6 a -> AddressWithin ev target cidr4 cidr6

theorem matchAddressLookup_eq_match {ev : Evaluator} {target : Str} {cidr4 cidr6 : Nat} :
    (matchAddressLookup resolver ip ev target cidr4 cidr6).1 = MechOutcome.match <->
      AddressWithin resolver ip ev target cidr4 cidr6 := by
  cases ip with
  | v4 v4 =>
      refine matchAnswer_eq_match.trans ?_
      constructor
      · intro h
        rcases h with ⟨ips, a, hips, ha, haccepts⟩
        exact AddressWithin.v4 rfl hips ha ((inCidr_iff v4 a cidr4).mp haccepts)
      · intro h
        cases h with
        | @v4 bits ips a hip hips ha hprefix =>
            cases hip
            exact ⟨ips, a, hips, ha, (inCidr_iff v4 a cidr4).mpr hprefix⟩
        | v6 hip => cases hip
  | v6 v6 =>
      refine matchAnswer_eq_match.trans ?_
      constructor
      · intro h
        rcases h with ⟨ips, a, hips, ha, haccepts⟩
        exact AddressWithin.v6 rfl hips ha ((inCidr_iff v6 a cidr6).mp haccepts)
      · intro h
        cases h with
        | v4 hip => cases hip
        | @v6 bits ips a hip hips ha hprefix =>
            cases hip
            exact ⟨ips, a, hips, ha, (inCidr_iff v6 a cidr6).mpr hprefix⟩

/-- One of the hosts, asked in turn, has such an address, and those before it have none. -/
inductive HostWithin (cidr4 cidr6 : Nat) : List Str -> Evaluator -> Prop where
  | here {host : Str} {hosts : List Str} {ev paid : Evaluator} :
      (ev.reached (Term.host host)).chargeLookup = (Except.ok (), paid) ->
        AddressWithin resolver ip paid (normalize host) cidr4 cidr6 ->
          HostWithin cidr4 cidr6 (host :: hosts) ev
  | next {host : Str} {hosts : List Str} {ev paid after : Evaluator} :
      (ev.reached (Term.host host)).chargeLookup = (Except.ok (), paid) ->
        matchAddressLookup resolver ip paid (normalize host) cidr4 cidr6 =
          (MechOutcome.noMatch, after) ->
        HostWithin cidr4 cidr6 hosts after -> HostWithin cidr4 cidr6 (host :: hosts) ev

theorem matchHosts_eq_match {cidr4 cidr6 : Nat} {hosts : List Str} :
    (matchHosts resolver ip cidr4 cidr6 hosts ev).1 = MechOutcome.match <->
      HostWithin resolver ip cidr4 cidr6 hosts ev := by
  induction hosts generalizing ev with
  | nil =>
      constructor
      · intro h
        cases h
      · intro h
        cases h
  | cons host hosts ih =>
      rw [matchHosts]
      rcases hcharge : (ev.reached (Term.host host)).chargeLookup with ⟨e | _, paid⟩
      · dsimp only
        constructor
        · intro h
          cases h
        · intro h
          cases h with
          | here hpaid | next hpaid =>
              rw [hcharge] at hpaid
              cases hpaid
      · have hmatch := @matchAddressLookup_eq_match resolver ip paid (normalize host) cidr4 cidr6
        rcases hlookup : matchAddressLookup resolver ip paid (normalize host) cidr4 cidr6 with
          ⟨outcome, after⟩
        rw [hlookup] at hmatch
        dsimp only
        rw [hlookup]
        constructor
        · intro h
          cases outcome with
          | «match» => exact HostWithin.here hcharge (hmatch.mp rfl)
          | abort r => cases h
          | noMatch => exact HostWithin.next hcharge hlookup (ih.mp h)
        · intro h
          cases h with
          | here hpaid hwithin =>
              rw [hcharge] at hpaid
              cases hpaid
              have houtcome : outcome = MechOutcome.match := hmatch.mpr hwithin
              rw [houtcome]
          | next hpaid hnext hrest =>
              rw [hcharge] at hpaid
              cases hpaid
              rw [hlookup] at hnext
              cases hnext
              exact ih.mpr hrest

section Recursion

variable (recurse : Evaluator -> Str -> SpfResult × Evaluator)

/-- What a mechanism matches on, asked of the resolver when the mechanism is evaluated. -/
inductive Matches (ev : Evaluator) (currentDomain : Str) : Mechanism -> Prop where
  | all : Matches ev currentDomain Mechanism.all
  | ip4 {v4 net : BitVec 32} {cidr : Nat} :
      ip = IpAddr.v4 v4 -> SamePrefix cidr v4 net ->
        Matches ev currentDomain (Mechanism.ip4 net cidr)
  | ip6 {v6 net : BitVec 128} {cidr : Nat} :
      ip = IpAddr.v6 v6 -> SamePrefix cidr v6 net ->
        Matches ev currentDomain (Mechanism.ip6 net cidr)
  | «include» {target : Str} {paid : Evaluator} :
      ev.chargeLookup = (Except.ok (), paid) -> (recurse paid target).1 = SpfResult.pass ->
        Matches ev currentDomain (Mechanism.include target)
  | a {domain : Option Str} {cidr4 cidr6 : Nat} {paid : Evaluator} :
      ev.chargeLookup = (Except.ok (), paid) ->
        AddressWithin resolver ip paid (normalize (domain.getD currentDomain)) cidr4 cidr6 ->
          Matches ev currentDomain (Mechanism.a domain cidr4 cidr6)
  | mx {domain : Option Str} {cidr4 cidr6 : Nat} {paid : Evaluator} {hosts : List Str} :
      ev.chargeLookup = (Except.ok (), paid) ->
        resolver.lookupMx paid.calls (normalize (domain.getD currentDomain)) = Except.ok hosts ->
        HostWithin resolver ip cidr4 cidr6 hosts
          (paid.asked (Query.mx (normalize (domain.getD currentDomain)))) ->
        Matches ev currentDomain (Mechanism.mx domain cidr4 cidr6)
  | «exists» {target : Str} {paid : Evaluator} {ips : List (BitVec 32)} :
      ev.chargeLookup = (Except.ok (), paid) ->
        resolver.lookupA paid.calls (normalize target) = Except.ok ips -> ips ≠ [] ->
          Matches ev currentDomain (Mechanism.exists target)

theorem test_eq_match {accepted : Bool} :
    (if accepted then MechOutcome.match else MechOutcome.noMatch) = MechOutcome.match <->
      accepted = true := by
  cases accepted <;> decide

theorem includeOutcome_eq_match {result : SpfResult} :
    includeOutcome result = MechOutcome.match <-> result = SpfResult.pass := by
  cases result <;> decide

theorem charged_eq_match {ev : Evaluator} {run : MechOutcome × Evaluator}
    {found : Evaluator -> Prop}
    (hrefused : forall e after, ev.chargeLookup = (Except.error e, after) ->
      run = (MechOutcome.abort e, after))
    (hpaid : forall paid, ev.chargeLookup = (Except.ok (), paid) ->
      (run.1 = MechOutcome.match <-> found paid)) :
    run.1 = MechOutcome.match <->
      exists paid, ev.chargeLookup = (Except.ok (), paid) ∧ found paid := by
  rcases hcharge : ev.chargeLookup with ⟨e | _, after⟩
  · rw [hrefused e after hcharge]
    constructor
    · intro h
      cases h
    · intro h
      rcases h with ⟨paid, hpaid, _⟩
      cases hpaid
  · rw [hpaid after hcharge]
    constructor
    · intro h
      exact ⟨after, rfl, h⟩
    · intro h
      rcases h with ⟨paid, hsame, hfound⟩
      cases hsame
      exact hfound

theorem mailHosts_eq_match {paid : Evaluator} {target : Str} {cidr4 cidr6 : Nat}
    {run : MechOutcome × Evaluator}
    (hfailed : resolver.lookupMx paid.calls target = Except.error () ->
      run = (MechOutcome.abort SpfResult.tempError, paid.asked (Query.mx target)))
    (hhosts : forall hosts, resolver.lookupMx paid.calls target = Except.ok hosts ->
      run = if hosts.isEmpty then (paid.asked (Query.mx target)).matchVoid
        else matchHosts resolver ip cidr4 cidr6 hosts (paid.asked (Query.mx target))) :
    run.1 = MechOutcome.match <->
      exists hosts, resolver.lookupMx paid.calls target = Except.ok hosts ∧
        HostWithin resolver ip cidr4 cidr6 hosts (paid.asked (Query.mx target)) := by
  cases hanswer : resolver.lookupMx paid.calls target with
  | error e =>
      rw [hfailed hanswer]
      constructor
      · intro h
        cases h
      · intro h
        rcases h with ⟨hosts, hother, _⟩
        cases hother
  | ok hosts =>
      rw [hhosts hosts hanswer]
      by_cases hvoid : hosts.isEmpty = true
      · rw [if_pos hvoid, List.isEmpty_iff.mp hvoid]
        constructor
        · intro h
          exact absurd h (matchVoid_ne_match _)
        · intro h
          rcases h with ⟨others, hothers, hwithin⟩
          cases hothers
          cases hwithin
      · rw [if_neg hvoid, matchHosts_eq_match]
        constructor
        · intro h
          exact ⟨hosts, rfl, h⟩
        · intro h
          rcases h with ⟨others, hothers, hwithin⟩
          cases hothers
          exact hwithin

theorem evalMechanism_eq_match {ev : Evaluator} {m : Mechanism} {currentDomain : Str} :
    (evalMechanism resolver ip recurse ev m currentDomain).1 = MechOutcome.match <->
      Matches resolver ip recurse ev currentDomain m := by
  cases m with
  | all => exact ⟨fun _ => Matches.all, fun _ => rfl⟩
  | «include» target =>
      refine (@charged_eq_match ev _ (fun paid => (recurse paid target).1 = SpfResult.pass)
        ?_ ?_).trans ?_
      · intro e after hcharge
        rw [evalMechanism, hcharge]
      · intro paid hcharge
        rw [evalMechanism, hcharge]
        exact includeOutcome_eq_match
      · constructor
        · intro h
          rcases h with ⟨paid, hcharge, hpass⟩
          exact Matches.include hcharge hpass
        · intro h
          cases h with
          | «include» hcharge hpass => exact ⟨_, hcharge, hpass⟩
  | ip4 net cidr =>
      cases ip with
      | v4 v4 =>
          refine test_eq_match.trans ((inCidr_iff v4 net cidr).trans ?_)
          constructor
          · intro h
            exact Matches.ip4 rfl h
          · intro h
            cases h with
            | ip4 hip hprefix =>
                cases hip
                exact hprefix
      | v6 v6 =>
          constructor
          · intro h
            cases h
          · intro h
            cases h with
            | ip4 hip => cases hip
  | ip6 net cidr =>
      cases ip with
      | v4 v4 =>
          constructor
          · intro h
            cases h
          · intro h
            cases h with
            | ip6 hip => cases hip
      | v6 v6 =>
          refine test_eq_match.trans ((inCidr_iff v6 net cidr).trans ?_)
          constructor
          · intro h
            exact Matches.ip6 rfl h
          · intro h
            cases h with
            | ip6 hip hprefix =>
                cases hip
                exact hprefix
  | a domain cidr4 cidr6 =>
      refine (@charged_eq_match ev _ (fun paid => AddressWithin resolver ip paid
        (normalize (domain.getD currentDomain)) cidr4 cidr6) ?_ ?_).trans ?_
      · intro e after hcharge
        rw [evalMechanism, hcharge]
      · intro paid hcharge
        rw [evalMechanism, hcharge]
        exact matchAddressLookup_eq_match resolver ip
      · constructor
        · intro h
          rcases h with ⟨paid, hcharge, hwithin⟩
          exact Matches.a hcharge hwithin
        · intro h
          cases h with
          | a hcharge hwithin => exact ⟨_, hcharge, hwithin⟩
  | mx domain cidr4 cidr6 =>
      refine (@charged_eq_match ev _ (fun paid => exists hosts,
        resolver.lookupMx paid.calls (normalize (domain.getD currentDomain)) = Except.ok hosts ∧
        HostWithin resolver ip cidr4 cidr6 hosts
          (paid.asked (Query.mx (normalize (domain.getD currentDomain))))) ?_ ?_).trans ?_
      · intro e after hcharge
        rw [evalMechanism, hcharge]
      · intro paid hcharge
        rw [evalMechanism, hcharge]
        dsimp only
        apply mailHosts_eq_match
        · intro hfailed
          rw [hfailed]
        · intro hosts hhosts
          rw [hhosts]
      · constructor
        · intro h
          rcases h with ⟨paid, hcharge, hosts, hhosts, hwithin⟩
          exact Matches.mx hcharge hhosts hwithin
        · intro h
          cases h with
          | mx hcharge hhosts hwithin => exact ⟨_, hcharge, _, hhosts, hwithin⟩
  | ptr =>
      constructor
      · intro h
        rw [evalMechanism] at h
        split at h
        · cases h
        · cases h
      · intro h
        cases h
  | «exists» target =>
      refine (@charged_eq_match ev _ (fun paid => exists ips,
        resolver.lookupA paid.calls (normalize target) = Except.ok ips ∧ ips ≠ []) ?_ ?_).trans ?_
      · intro e after hcharge
        rw [evalMechanism, hcharge]
      · intro paid hcharge
        rw [evalMechanism, hcharge]
        refine matchAnswer_eq_match.trans ?_
        constructor
        · intro h
          rcases h with ⟨ips, a, hips, ha, _⟩
          exact ⟨ips, hips, List.ne_nil_of_mem ha⟩
        · intro h
          rcases h with ⟨ips, hips, hsome⟩
          rcases List.exists_mem_of_ne_nil ips hsome with ⟨a, ha⟩
          exact ⟨ips, a, hips, ha, rfl⟩
      · constructor
        · intro h
          rcases h with ⟨paid, hcharge, ips, hips, hsome⟩
          exact Matches.exists hcharge hips hsome
        · intro h
          cases h with
          | «exists» hcharge hips hsome => exact ⟨_, hcharge, _, hips, hsome⟩

/-!
# The loop
-/

/-- The mechanisms are evaluated one after the other, and none of them matches. -/
inductive Unmatched (currentDomain : Str) :
    List (Qualifier × Mechanism) -> Evaluator -> Evaluator -> Prop where
  | nil (ev : Evaluator) : Unmatched currentDomain [] ev ev
  | cons {q : Qualifier} {m : Mechanism} {rest : List (Qualifier × Mechanism)}
      {ev next after : Evaluator} :
      mechanismHasMacro m = false ->
        Not (Matches resolver ip recurse (ev.reached (Term.mechanism m)) currentDomain m) ->
        evalMechanism resolver ip recurse (ev.reached (Term.mechanism m)) m currentDomain =
          (MechOutcome.noMatch, next) ->
        Unmatched currentDomain rest next after ->
          Unmatched currentDomain ((q, m) :: rest) ev after

theorem Unmatched.evalMechanisms {currentDomain : Str}
    {front : List (Qualifier × Mechanism)} {ev after : Evaluator}
    (h : Unmatched resolver ip recurse currentDomain front ev after)
    (back : List (Qualifier × Mechanism)) :
    evalMechanisms resolver ip recurse currentDomain (front ++ back) ev =
      evalMechanisms resolver ip recurse currentDomain back after := by
  induction h with
  | nil ev => rfl
  | cons hliteral _ hnext _ ih =>
      rw [List.cons_append, Evaluator.evalMechanisms, hliteral, hnext]
      exact ih

theorem Unmatched.eq_none {currentDomain : Str} {mechanisms : List (Qualifier × Mechanism)}
    {after : Evaluator} (h : Unmatched resolver ip recurse currentDomain mechanisms ev after) :
    Evaluator.evalMechanisms resolver ip recurse currentDomain mechanisms ev = (none, after) := by
  have hend := h.evalMechanisms resolver ip recurse []
  rw [List.append_nil] at hend
  exact hend

/-- What the loop comes to: nothing, an error, or the qualifier of a mechanism that
matches. -/
inductive Decides (currentDomain : Str) (mechanisms : List (Qualifier × Mechanism))
    (ev : Evaluator) : Prop where
  | nothing {after : Evaluator} :
      Unmatched resolver ip recurse currentDomain mechanisms ev after ->
        Decides currentDomain mechanisms ev
  | fails {result : SpfResult} {after : Evaluator} : IsError result ->
      evalMechanisms resolver ip recurse currentDomain mechanisms ev = (some result, after) ->
        Decides currentDomain mechanisms ev
  | «match» {front back : List (Qualifier × Mechanism)} {q : Qualifier} {m : Mechanism}
      {before after : Evaluator} : mechanisms = front ++ (q, m) :: back ->
      Unmatched resolver ip recurse currentDomain front ev before ->
      mechanismHasMacro m = false ->
      Matches resolver ip recurse (before.reached (Term.mechanism m)) currentDomain m ->
      evalMechanisms resolver ip recurse currentDomain mechanisms ev =
        (some (qualifierToResult q), after) -> Decides currentDomain mechanisms ev

theorem decides (currentDomain : Str) (mechanisms : List (Qualifier × Mechanism))
    (ev : Evaluator) : Decides resolver ip recurse currentDomain mechanisms ev := by
  induction mechanisms generalizing ev with
  | nil => exact Decides.nothing (Unmatched.nil ev)
  | cons qm rest ih =>
      rcases qm with ⟨q, m⟩
      cases hliteral : mechanismHasMacro m with
      | true =>
          refine Decides.fails (Or.inr rfl) (?_ : _ = (some SpfResult.permError, ev))
          rw [Evaluator.evalMechanisms, hliteral]
          rfl
      | false =>
          let before := ev.reached (Term.mechanism m)
          have herrs := errs_evalMechanism resolver ip recurse before m currentDomain
          have hmatch := @evalMechanism_eq_match resolver ip recurse before m currentDomain
          rcases houtcome : evalMechanism resolver ip recurse before m currentDomain with
            ⟨outcome, next⟩
          rw [houtcome] at herrs hmatch
          cases outcome with
          | «match» =>
              refine Decides.match (List.nil_append _).symm (Unmatched.nil ev) hliteral
                (hmatch.mp rfl) (?_ : _ = (some (qualifierToResult q), next))
              rw [Evaluator.evalMechanisms, hliteral, houtcome]
              rfl
          | abort r =>
              refine Decides.fails (herrs r rfl) (?_ : _ = (some r, next))
              rw [Evaluator.evalMechanisms, hliteral, houtcome]
              rfl
          | noMatch =>
              have hnot : Not (Matches resolver ip recurse before currentDomain m) := by
                intro hmatches
                cases hmatch.mpr hmatches
              have hfront : Unmatched resolver ip recurse currentDomain [(q, m)] ev next :=
                Unmatched.cons hliteral hnot houtcome (Unmatched.nil next)
              have hskip := hfront.evalMechanisms resolver ip recurse rest
              cases ih next with
              | nothing hrest =>
                  exact Decides.nothing (Unmatched.cons hliteral hnot houtcome hrest)
              | fails herror heval => exact Decides.fails herror (hskip.trans heval)
              | @«match» front back q' m' _ _ hsplit hunmatched hplain hmatches heval =>
                  have hlonger : (q, m) :: rest = ((q, m) :: front) ++ (q', m') :: back := by
                    rw [hsplit, List.cons_append]
                  exact Decides.match hlonger
                    (Unmatched.cons hliteral hnot houtcome hunmatched) hplain hmatches
                    (hskip.trans heval)

/-!
# Records
-/

/-- The redirect that the evaluation of a record follows: no mechanism decides, and the
lookup of the target is paid for. -/
def Follows (currentDomain : Str) (parsed : ParsedRecord) (ev : Evaluator) (target : Str)
    (paid : Evaluator) : Prop :=
  exists after,
    evalMechanisms resolver ip recurse currentDomain parsed.mechanisms ev = (none, after) ∧
    parsed.redirect = some target ∧ target.contains '%' = false ∧
    (after.reached (Term.redirect target)).chargeLookup = (Except.ok (), paid)

theorem evalRecord_of_follows {currentDomain : Str} {parsed : ParsedRecord} {target : Str}
    {paid : Evaluator} (h : Follows resolver ip recurse currentDomain parsed ev target paid) :
    evalRecord resolver ip recurse currentDomain parsed ev = recurse paid target := by
  rcases h with ⟨after, hmechanisms, hredirect, hliteral, hcharge⟩
  rw [evalRecord, hmechanisms, hredirect]
  dsimp only
  rw [hliteral, hcharge]
  rfl

inductive Evaluates (currentDomain : Str) (parsed : ParsedRecord) (ev : Evaluator) : Prop where
  | fails : IsError (evalRecord resolver ip recurse currentDomain parsed ev).1 ->
      Evaluates currentDomain parsed ev
  | neutral :
      (evalRecord resolver ip recurse currentDomain parsed ev).1 = SpfResult.neutral ->
        Evaluates currentDomain parsed ev
  | «match» {front back : List (Qualifier × Mechanism)} {q : Qualifier} {m : Mechanism}
      {before : Evaluator} : parsed.mechanisms = front ++ (q, m) :: back ->
      Unmatched resolver ip recurse currentDomain front ev before ->
      mechanismHasMacro m = false ->
      Matches resolver ip recurse (before.reached (Term.mechanism m)) currentDomain m ->
      (evalRecord resolver ip recurse currentDomain parsed ev).1 = qualifierToResult q ->
        Evaluates currentDomain parsed ev
  | follows {after paid : Evaluator} {target : Str} :
      Unmatched resolver ip recurse currentDomain parsed.mechanisms ev after ->
      parsed.redirect = some target -> target.contains '%' = false ->
      (after.reached (Term.redirect target)).chargeLookup = (Except.ok (), paid) ->
        Evaluates currentDomain parsed ev

theorem evaluates (currentDomain : Str) (parsed : ParsedRecord) (ev : Evaluator) :
    Evaluates resolver ip recurse currentDomain parsed ev := by
  cases decides resolver ip recurse currentDomain parsed.mechanisms ev with
  | fails herror heval =>
      apply Evaluates.fails
      rw [evalRecord, heval]
      exact herror
  | «match» hsplit hunmatched hplain hmatches heval =>
      refine Evaluates.match hsplit hunmatched hplain hmatches ?_
      rw [evalRecord, heval]
  | @nothing after hunmatched =>
      have heval := hunmatched.eq_none resolver ip recurse
      cases hredirect : parsed.redirect with
      | none =>
          apply Evaluates.neutral
          rw [evalRecord, heval, hredirect]
      | some target =>
          cases hliteral : target.contains '%' with
          | true =>
              apply Evaluates.fails
              rw [evalRecord, heval, hredirect]
              dsimp only
              rw [hliteral]
              exact Or.inr rfl
          | false =>
              rcases hcharge : (after.reached (Term.redirect target)).chargeLookup with
                ⟨e | _, paid⟩
              · apply Evaluates.fails
                rw [evalRecord, heval, hredirect]
                dsimp only
                rw [hliteral, hcharge]
                exact chargeLookup_error hcharge
              · exact Evaluates.follows hunmatched hredirect hliteral hcharge

end Recursion

/-- No policy: no name is left of the domain, or the lookup succeeds without a record. -/
def Unpublished (ev : Evaluator) (domain : Str) : Prop :=
  normalize domain = [] ∨
    exists txts, resolver.lookupTxt ev.calls (normalize domain) = Except.ok txts ∧
      txts.filter isSpf1Record = []

def Publishes (ev : Evaluator) (domain : Str) (parsed : ParsedRecord) : Prop :=
  normalize domain ≠ [] ∧
    exists txts record, resolver.lookupTxt ev.calls (normalize domain) = Except.ok txts ∧
      txts.filter isSpf1Record = [record] ∧ parseRecord record = some parsed

theorem Publishes.not_unpublished {domain : Str} {parsed : ParsedRecord}
    (h : Publishes resolver ev domain parsed) : Not (Unpublished resolver ev domain) := by
  intro hunpublished
  rcases h with ⟨hname, txts, record, htxts, hrecord, _⟩
  rcases hunpublished with hempty | ⟨others, hothers, hfilter⟩
  · exact hname hempty
  · rw [htxts] at hothers
    cases hothers
    rw [hfilter] at hrecord
    cases hrecord

variable (sender : Str)

theorem checkHost_of_unpublished {depth : Nat} (hdepth : depth <= maxChainDepth) {domain : Str}
    (h : Unpublished resolver ev domain) :
    (checkHost resolver ip sender depth ev domain).1 = SpfResult.none := by
  rw [checkHost, if_neg (Nat.not_lt.mpr hdepth)]
  dsimp only
  by_cases hname : normalize domain = []
  · rw [hname]
    rfl
  · rcases h with hempty | ⟨txts, htxts, hfilter⟩
    · exact absurd hempty hname
    · rw [if_neg (mt List.isEmpty_iff.mp hname)]
      change (evalAnswer resolver ip _ _ (resolver.lookupTxt ev.calls (normalize domain)) _).1 = _
      rw [htxts, evalAnswer, hfilter]

theorem checkHost_of_publishes {depth : Nat} (hdepth : depth <= maxChainDepth) {domain : Str}
    {parsed : ParsedRecord} (h : Publishes resolver ev domain parsed) :
    checkHost resolver ip sender depth ev domain =
      evalRecord resolver ip (checkHost resolver ip sender (depth + 1)) (normalize domain) parsed
        ((ev.entered depth).asked (Query.txt (normalize domain))) := by
  rcases h with ⟨hname, txts, record, htxts, hfilter, hparse⟩
  rw [checkHost, if_neg (Nat.not_lt.mpr hdepth)]
  dsimp only
  rw [if_neg (mt List.isEmpty_iff.mp hname)]
  change evalAnswer resolver ip _ _ (resolver.lookupTxt ev.calls (normalize domain)) _ = _
  rw [htxts, evalAnswer, hfilter]
  dsimp only
  rw [hparse]

theorem checkHost_cases (depth : Nat) (ev : Evaluator) (domain : Str) :
    IsError (checkHost resolver ip sender depth ev domain).1 ∨
      depth <= maxChainDepth ∧ (Unpublished resolver ev domain ∨
        exists parsed, Publishes resolver ev domain parsed) := by
  rw [checkHost]
  split
  · exact Or.inl (Or.inr rfl)
  · rename_i hdepth
    dsimp only
    by_cases hname : normalize domain = []
    · exact Or.inr ⟨Nat.not_lt.mp hdepth, Or.inl (Or.inl hname)⟩
    · rw [if_neg (mt List.isEmpty_iff.mp hname)]
      change IsError
        (evalAnswer resolver ip _ _ (resolver.lookupTxt ev.calls (normalize domain)) _).1 ∨ _
      cases htxts : resolver.lookupTxt ev.calls (normalize domain) with
      | error e => exact Or.inl (Or.inl rfl)
      | ok txts =>
          rw [evalAnswer]
          split
          · rename_i hfilter
            exact Or.inr ⟨Nat.not_lt.mp hdepth, Or.inl (Or.inr ⟨txts, htxts, hfilter⟩)⟩
          · rename_i record hfilter
            split
            · exact Or.inl (Or.inr rfl)
            · rename_i parsed hparse
              exact Or.inr ⟨Nat.not_lt.mp hdepth,
                Or.inr ⟨parsed, hname, txts, record, htxts, hfilter, hparse⟩⟩
          · exact Or.inl (Or.inr rfl)

end Evaluator
end Spf
end Gateway
end Ephor
