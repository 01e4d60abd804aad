import Ephor.Gateway.Spf

/-!
# SPF evaluation is bounded

Every call of the resolver but the first is paid for by a charge just before it, and no
charge succeeds once the budget is spent.  A charge that fails aborts the evaluation with
`permError` on every level, so the counters never run on.
-/

namespace Ephor
namespace Gateway
namespace Spf

open Foundation

/-!
# What is counted

Charged and void lookups are counted apart from the evaluator: the former by the terms it
comes to, the latter by the answers to its calls.
-/

/-- The terms that cost a lookup. -/
def costs : Term -> Bool
  | Term.mechanism Mechanism.all => false
  | Term.mechanism (Mechanism.ip4 _ _) => false
  | Term.mechanism (Mechanism.ip6 _ _) => false
  | _ => true

def nothing {record : Type} : Except Unit (List record) -> Bool
  | Except.ok [] => true
  | _ => false

/-- A void lookup: one for addresses or exchanges that is answered with none. -/
def isVoid (resolver : SpfResolver) (before : List Query) : Query -> Bool
  | Query.txt _ => false
  | Query.a name => nothing (resolver.lookupA before name)
  | Query.aaaa name => nothing (resolver.lookupAaaa before name)
  | Query.mx name => nothing (resolver.lookupMx before name)

def voidsAfter (resolver : SpfResolver) (before : List Query) : List Query -> Nat
  | [] => 0
  | query :: rest =>
      (isVoid resolver before query).toNat + voidsAfter resolver (before ++ [query]) rest

/-- The void lookups among the calls of an evaluation. -/
def voids (resolver : SpfResolver) (calls : List Query) : Nat :=
  voidsAfter resolver [] calls

theorem voidsAfter_snoc (resolver : SpfResolver) (before calls : List Query) (query : Query) :
    voidsAfter resolver before (calls ++ [query]) =
      voidsAfter resolver before calls + (isVoid resolver (before ++ calls) query).toNat := by
  induction calls generalizing before with
  | nil => simp [voidsAfter]
  | cons asked calls ih =>
      rw [List.cons_append, voidsAfter, voidsAfter, ih, List.append_assoc, List.singleton_append,
        Nat.add_assoc]

namespace Evaluator

variable {ev : Evaluator}

/-- Within the budget, with every call but the first paid for and so many calls ahead. -/
structure Within (resolver : SpfResolver) (ahead : Nat) (ev : Evaluator) : Prop where
  lookups : ev.lookups <= defaultMaxLookups
  charged : ev.terms.countP costs <= ev.lookups
  voidLookups : ev.voidLookups <= defaultMaxVoidLookups
  voids : voids resolver ev.calls <= ev.voidLookups
  calls : ev.calls.length + ahead <= ev.lookups + 1
  deepest : ev.deepest <= maxChainDepth + 1

/-- What holds at any time. -/
structure Bounded (ev : Evaluator) : Prop where
  calls : ev.calls.length <= defaultMaxLookups + 1
  deepest : ev.deepest <= maxChainDepth + 1

variable (resolver : SpfResolver)

/-- Evaluation of a record ends within the budget or in `permError`. -/
def Ended (run : SpfResult × Evaluator) : Prop :=
  Within resolver 0 run.2 ∨ (run.1 = SpfResult.permError ∧ Bounded run.2)

def Leaves (run : MechOutcome × Evaluator) : Prop :=
  Within resolver 0 run.2 ∨ (run.1 = MechOutcome.abort SpfResult.permError ∧ Bounded run.2)

variable {resolver}

theorem Within.bounded {ahead : Nat} (h : Within resolver ahead ev) : Bounded ev where
  calls := by
    have hcalls := h.calls
    have hlookups := h.lookups
    omega
  deepest := h.deepest

theorem Within.unspent (h : Within resolver 1 ev) : Within resolver 0 ev :=
  { h with calls := Nat.le_of_succ_le h.calls }

/-!
# Charging and asking
-/

theorem voids_asked (ev : Evaluator) (query : Query) :
    voids resolver (ev.asked query).calls =
      voids resolver ev.calls + (isVoid resolver ev.calls query).toNat :=
  voidsAfter_snoc resolver [] ev.calls query

theorem calls_asked (h : Within resolver 1 ev) (query : Query) :
    (ev.asked query).calls.length <= ev.lookups + 1 := by
  rw [asked, List.length_append, List.length_singleton]
  exact h.calls

theorem within_asked (h : Within resolver 1 ev) {query : Query}
    (hvoid : isVoid resolver ev.calls query = false) : Within resolver 0 (ev.asked query) :=
  { h with
    calls := calls_asked h query
    voids := by
      rw [voids_asked, hvoid]
      exact h.voids }

theorem within_reached (h : Within resolver 0 ev) {term : Term} (hfree : costs term = false) :
    Within resolver 0 (ev.reached term) :=
  { h with
    charged := by
      rw [reached, List.countP_append, List.countP_singleton, hfree]
      exact h.charged }

theorem chargeLookup_cases (h : Within resolver 0 ev) (term : Term) :
    (exists paid, (ev.reached term).chargeLookup = (Except.ok (), paid) ∧
      Within resolver 1 paid) ∨
    (exists spent, (ev.reached term).chargeLookup = (Except.error SpfResult.permError, spent) ∧
      Bounded spent) := by
  by_cases hmax : ev.lookups + 1 > defaultMaxLookups
  · exact Or.inr ⟨_, if_pos hmax, h.bounded.calls, h.deepest⟩
  · refine Or.inl ⟨_, if_neg hmax, Nat.not_lt.mp hmax, ?_, h.voidLookups, h.voids,
      Nat.succ_le_succ h.calls, h.deepest⟩
    change (ev.terms ++ [term]).countP costs <= ev.lookups + 1
    rw [List.countP_append]
    exact Nat.add_le_add h.charged List.countP_le_length

theorem leaves_matchVoid (h : Within resolver 1 ev) (query : Query) :
    Leaves resolver (ev.asked query).matchVoid := by
  have hcalls := calls_asked h query
  have hlookups := h.lookups
  by_cases hmax : (ev.asked query).voidLookups + 1 > defaultMaxVoidLookups
  · apply Or.inr
    rw [matchVoid, chargeVoid, if_pos hmax]
    exact ⟨rfl, hcalls.trans (Nat.succ_le_succ hlookups), h.deepest⟩
  · apply Or.inl
    rw [matchVoid, chargeVoid, if_neg hmax]
    refine ⟨hlookups, h.charged, Nat.not_lt.mp hmax, ?_, hcalls, h.deepest⟩
    exact (voids_asked ev query).trans_le (Nat.add_le_add h.voids (Bool.toNat_le _))

theorem leaves_matchAnswer {address : Type} (h : Within resolver 1 ev) {query : Query}
    (answer : Except Unit (List address)) (accepts : address -> Bool)
    (hvoid : isVoid resolver ev.calls query = nothing answer) :
    Leaves resolver ((ev.asked query).matchAnswer answer accepts) := by
  cases answer with
  | error e => exact Or.inl (within_asked h hvoid)
  | ok ips =>
      cases ips with
      | nil => exact leaves_matchVoid h query
      | cons ip ips =>
          have hasked := within_asked h hvoid
          unfold matchAnswer
          dsimp only
          rw [if_neg (by simp)]
          split
          · exact Or.inl hasked
          · exact Or.inl hasked

/-!
# Mechanisms
-/

variable (resolver) (ip : IpAddr)

theorem leaves_matchAddressLookup (h : Within resolver 1 ev) (target : Str) (cidr4 cidr6 : Nat) :
    Leaves resolver (matchAddressLookup resolver ip ev target cidr4 cidr6) := by
  cases ip with
  | v4 v4 | v6 v6 => exact leaves_matchAnswer h _ _ rfl

theorem leaves_matchHosts (cidr4 cidr6 : Nat) (hosts : List Str) (h : Within resolver 0 ev) :
    Leaves resolver (matchHosts resolver ip cidr4 cidr6 hosts ev) := by
  induction hosts generalizing ev with
  | nil => exact Or.inl h
  | cons host hosts ih =>
      rcases chargeLookup_cases h (Term.host host) with
        ⟨paid, hcharge, hpaid⟩ | ⟨spent, hcharge, hspent⟩
      · have hlookup := leaves_matchAddressLookup resolver ip hpaid (normalize host) cidr4 cidr6
        rw [matchHosts, hcharge]
        dsimp only
        generalize matchAddressLookup resolver ip paid (normalize host) cidr4 cidr6 = run
          at hlookup
        rcases run with ⟨outcome, after⟩
        cases outcome with
        | «match» | abort r => exact hlookup
        | noMatch =>
            rcases hlookup with hwithin | ⟨habort, _⟩
            · exact ih hwithin
            · cases habort
      · rw [matchHosts, hcharge]
        exact Or.inr ⟨rfl, hspent⟩

theorem leaves_includeOutcome {run : SpfResult × Evaluator} (h : Ended resolver run) :
    Leaves resolver (includeOutcome run.1, run.2) := by
  rcases h with hwithin | ⟨hperm, hbounded⟩
  · exact Or.inl hwithin
  · apply Or.inr
    rw [hperm]
    exact ⟨rfl, hbounded⟩

section Recursion

variable {recurse : Evaluator -> Str -> SpfResult × Evaluator}
  (hrecurse : forall ev target, Within resolver 1 ev -> Ended resolver (recurse ev target))

include hrecurse

theorem leaves_evalMechanism (h : Within resolver 0 ev) (m : Mechanism) (currentDomain : Str) :
    Leaves resolver
      (evalMechanism resolver ip recurse (ev.reached (Term.mechanism m)) m currentDomain) := by
  have hcharged : forall run : MechOutcome × Evaluator,
      (forall paid, (ev.reached (Term.mechanism m)).chargeLookup = (.ok (), paid) ->
        Within resolver 1 paid -> Leaves resolver run) ->
      (forall spent,
        (ev.reached (Term.mechanism m)).chargeLookup = (.error SpfResult.permError, spent) ->
        run = (MechOutcome.abort SpfResult.permError, spent)) -> Leaves resolver run := by
    intro run hrun hrefused
    rcases chargeLookup_cases h (Term.mechanism m) with
      ⟨paid, hcharge, hpaid⟩ | ⟨spent, hcharge, hspent⟩
    · exact hrun paid hcharge hpaid
    · rw [hrefused spent hcharge]
      exact Or.inr ⟨rfl, hspent⟩
  cases m with
  | all => exact Or.inl (within_reached h rfl)
  | «include» target =>
      apply hcharged
      · intro paid hcharge hpaid
        rw [evalMechanism, hcharge]
        exact leaves_includeOutcome resolver (hrecurse paid target hpaid)
      · intro spent hcharge
        rw [evalMechanism, hcharge]
  | ip4 net cidr | ip6 net cidr =>
      cases ip with
      | v4 v4 | v6 v6 => exact Or.inl (within_reached h rfl)
  | a domain cidr4 cidr6 =>
      apply hcharged
      · intro paid hcharge hpaid
        rw [evalMechanism, hcharge]
        exact leaves_matchAddressLookup resolver ip hpaid _ cidr4 cidr6
      · intro spent hcharge
        rw [evalMechanism, hcharge]
  | mx domain cidr4 cidr6 =>
      apply hcharged
      · intro paid hcharge hpaid
        rw [evalMechanism, hcharge]
        dsimp only
        generalize hanswer : resolver.lookupMx paid.calls (normalize (domain.getD currentDomain))
          = answer
        have hvoid : isVoid resolver paid.calls (Query.mx (normalize (domain.getD currentDomain)))
            = nothing answer := congrArg nothing hanswer
        cases answer with
        | error e => exact Or.inl (within_asked hpaid hvoid)
        | ok hosts =>
            cases hosts with
            | nil => exact leaves_matchVoid hpaid _
            | cons host hosts =>
                exact leaves_matchHosts resolver ip cidr4 cidr6 _ (within_asked hpaid hvoid)
      · intro spent hcharge
        rw [evalMechanism, hcharge]
  | ptr =>
      apply hcharged
      · intro paid hcharge hpaid
        rw [evalMechanism, hcharge]
        exact Or.inl hpaid.unspent
      · intro spent hcharge
        rw [evalMechanism, hcharge]
  | «exists» target =>
      apply hcharged
      · intro paid hcharge hpaid
        rw [evalMechanism, hcharge]
        exact leaves_matchAnswer hpaid _ _ rfl
      · intro spent hcharge
        rw [evalMechanism, hcharge]

theorem ended_evalMechanisms (currentDomain : Str) (mechanisms : List (Qualifier × Mechanism))
    (h : Within resolver 0 ev) :
    (exists result after, evalMechanisms resolver ip recurse currentDomain mechanisms ev =
      (some result, after) ∧ Ended resolver (result, after)) ∨
    (exists after, evalMechanisms resolver ip recurse currentDomain mechanisms ev =
      (none, after) ∧ Within resolver 0 after) := by
  induction mechanisms generalizing ev with
  | nil => exact Or.inr ⟨ev, rfl, h⟩
  | cons qm rest ih =>
      rcases qm with ⟨q, m⟩
      rw [evalMechanisms]
      split
      · exact Or.inl ⟨_, _, rfl, Or.inl h⟩
      · have hleaves := leaves_evalMechanism resolver ip hrecurse h m currentDomain
        generalize evalMechanism resolver ip recurse (ev.reached (Term.mechanism m)) m
          currentDomain = run at hleaves
        rcases run with ⟨outcome, after⟩
        cases outcome with
        | «match» =>
            rcases hleaves with hwithin | ⟨habort, _⟩
            · exact Or.inl ⟨_, _, rfl, Or.inl hwithin⟩
            · cases habort
        | noMatch =>
            rcases hleaves with hwithin | ⟨habort, _⟩
            · exact ih hwithin
            · cases habort
        | abort r =>
            refine Or.inl ⟨_, _, rfl, ?_⟩
            rcases hleaves with hwithin | ⟨habort, hbounded⟩
            · exact Or.inl hwithin
            · cases habort
              exact Or.inr ⟨rfl, hbounded⟩

theorem ended_evalRecord (currentDomain : Str) (parsed : ParsedRecord)
    (h : Within resolver 0 ev) :
    Ended resolver (evalRecord resolver ip recurse currentDomain parsed ev) := by
  unfold evalRecord
  rcases ended_evalMechanisms resolver ip hrecurse currentDomain parsed.mechanisms h with
    ⟨result, after, hrun, hended⟩ | ⟨after, hrun, hwithin⟩
  · rw [hrun]
    exact hended
  · rw [hrun]
    dsimp only
    cases parsed.redirect with
    | none => exact Or.inl hwithin
    | some target =>
        dsimp only
        split
        · exact Or.inl hwithin
        · rcases chargeLookup_cases hwithin (Term.redirect target) with
            ⟨paid, hcharge, hpaid⟩ | ⟨spent, hcharge, hspent⟩
          · rw [hcharge]
            exact hrecurse paid target hpaid
          · rw [hcharge]
            exact Or.inr ⟨rfl, hspent⟩

theorem ended_evalAnswer (currentDomain : Str) (answer : Except Unit (List Str))
    (h : Within resolver 0 ev) :
    Ended resolver (evalAnswer resolver ip recurse currentDomain answer ev) := by
  unfold evalAnswer
  cases answer with
  | error e => exact Or.inl h
  | ok txts =>
      dsimp only
      split
      · exact Or.inl h
      · split
        · exact Or.inl h
        · exact ended_evalRecord resolver ip hrecurse currentDomain _ h
      · exact Or.inl h

end Recursion

/-!
# The recursion
-/

theorem within_entered {ahead : Nat} (h : Within resolver ahead ev) {depth : Nat}
    (hdepth : depth <= maxChainDepth + 1) : Within resolver ahead (ev.entered depth) :=
  { h with deepest := Nat.max_le.mpr ⟨h.deepest, hdepth⟩ }

theorem ended_checkHost (sender : Str) {depth : Nat} (hdepth : depth <= maxChainDepth + 1)
    (h : Within resolver 1 ev) (domain : Str) :
    Ended resolver (checkHost resolver ip sender depth ev domain) := by
  fun_induction checkHost resolver ip sender depth ev domain with
  | case1 => exact Or.inl (within_entered resolver h hdepth).unspent
  | case2 => exact Or.inl (within_entered resolver h hdepth).unspent
  | case3 depth ev domain _ hdeep _ _ ih =>
      apply ended_evalAnswer
      · intro after target hafter
        exact ih after target (by omega) hafter
      · exact within_asked (within_entered resolver h hdepth) rfl

end Evaluator

/--
Whatever the resolver answers to each call: `check_host` calls it eleven times at most,
recurses no deeper than one level past the chain limit, and returns `permError` if it comes
to an eleventh term that costs a lookup or a third of its calls finds nothing.
-/
theorem checkHost_bounded (resolver : SpfResolver) (ip : IpAddr) (domain sender : Str) :
    (checkHostRun resolver ip domain sender).2.calls.length <= 11 ∧
    (checkHostRun resolver ip domain sender).2.deepest <= maxChainDepth + 1 ∧
    ((checkHostRun resolver ip domain sender).2.terms.countP costs >= 11 ∨
      voids resolver (checkHostRun resolver ip domain sender).2.calls >= 3 ->
      checkHost resolver ip domain sender = SpfResult.permError) := by
  have hnew : Evaluator.Within resolver 1 Evaluator.new :=
    ⟨Nat.zero_le _, Nat.le_refl _, Nat.zero_le _, Nat.le_refl _, Nat.le_refl _, Nat.zero_le _⟩
  have hended := Evaluator.ended_checkHost resolver ip sender (Nat.zero_le _) hnew domain
  change Evaluator.Ended resolver (checkHostRun resolver ip domain sender) at hended
  rcases hended with hwithin | ⟨hperm, hbounded⟩
  · refine ⟨hwithin.bounded.calls, hwithin.deepest, ?_⟩
    intro hspent
    have hcharged := hwithin.charged.trans hwithin.lookups
    have hvoids := hwithin.voids.trans hwithin.voidLookups
    unfold defaultMaxLookups at hcharged
    unfold defaultMaxVoidLookups at hvoids
    omega
  · exact ⟨hbounded.calls, hbounded.deepest, fun _ => hperm⟩

end Spf
end Gateway
end Ephor
