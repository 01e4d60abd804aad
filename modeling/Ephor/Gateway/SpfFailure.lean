import Mathlib.Data.List.Infix
import Ephor.Gateway.Spf

/-!
# Failed lookups end SPF evaluation

A lookup that fails is the last one of its evaluation, and the result is a temporary error,
however deep in the recursion it was made.
-/

namespace Ephor
namespace Gateway
namespace Spf

open Foundation

def Failed (resolver : SpfResolver) (calls : List Query) : Query -> Prop
  | Query.txt name => resolver.lookupTxt calls name = Except.error ()
  | Query.a name => resolver.lookupA calls name = Except.error ()
  | Query.aaaa name => resolver.lookupAaaa calls name = Except.error ()
  | Query.mx name => resolver.lookupMx calls name = Except.error ()

def Asked (calls front : List Query) (query : Query) : Prop :=
  front ++ [query] <+: calls

def AllAnswered (resolver : SpfResolver) (calls : List Query) : Prop :=
  forall front query, Asked calls front query -> ¬ Failed resolver front query

theorem allAnswered_snoc {resolver : SpfResolver} {calls : List Query}
    (h : AllAnswered resolver calls) (query : Query) (hquery : ¬ Failed resolver calls query) :
    AllAnswered resolver (calls ++ [query]) := by
  intro front asked hasked
  rcases List.prefix_concat_iff.mp hasked with heq | hbefore
  · rcases List.append_inj' heq rfl with ⟨hfront, hlast⟩
    cases hfront
    cases hlast
    exact hquery
  · exact h front asked hbefore

namespace Evaluator

variable {ev : Evaluator}

/-- Every lookup was answered, or the evaluation has ended in a temporary error. -/
def Stops (resolver : SpfResolver) (run : SpfResult × Evaluator) : Prop :=
  AllAnswered resolver run.2.calls ∨ run.1 = SpfResult.tempError

def Aborts (resolver : SpfResolver) (run : MechOutcome × Evaluator) : Prop :=
  AllAnswered resolver run.2.calls ∨ run.1 = MechOutcome.abort SpfResult.tempError

theorem calls_chargeLookup (ev : Evaluator) : ev.chargeLookup.2.calls = ev.calls := by
  unfold chargeLookup
  dsimp only
  split <;> rfl

theorem calls_chargeVoid (ev : Evaluator) : ev.chargeVoid.2.calls = ev.calls := by
  unfold chargeVoid
  dsimp only
  split <;> rfl

theorem calls_matchVoid (ev : Evaluator) : ev.matchVoid.2.calls = ev.calls := by
  have hcalls := calls_chargeVoid ev
  unfold matchVoid
  split
  · rename_i heq
    rwa [heq] at hcalls
  · rename_i heq
    rwa [heq] at hcalls

variable (resolver : SpfResolver) (ip : IpAddr)

theorem allAnswered_charged {after : Evaluator} {charged : Except SpfResult Unit}
    (h : AllAnswered resolver ev.calls) (hcharge : ev.chargeLookup = (charged, after)) :
    AllAnswered resolver after.calls := by
  have hcalls := calls_chargeLookup ev
  rw [hcharge] at hcalls
  dsimp only at hcalls
  rwa [hcalls]

theorem allAnswered_reached (h : AllAnswered resolver ev.calls) (term : Term) :
    AllAnswered resolver (ev.reached term).calls :=
  h

theorem aborts_matchAnswer {address : Type} {query : Query} (h : AllAnswered resolver ev.calls)
    (answer : Except Unit (List address)) (accepts : address -> Bool)
    (hanswer : Failed resolver ev.calls query -> answer = .error ()) :
    Aborts resolver ((ev.asked query).matchAnswer answer accepts) := by
  unfold matchAnswer
  cases answer with
  | error e => exact Or.inr rfl
  | ok ips =>
      have hasked : AllAnswered resolver (ev.asked query).calls := by
        apply allAnswered_snoc h _
        intro hfailed
        cases hanswer hfailed
      apply Or.inl
      dsimp only
      split
      · rwa [calls_matchVoid]
      · split
        · exact hasked
        · exact hasked

theorem aborts_matchAddressLookup (h : AllAnswered resolver ev.calls) (target : Str)
    (cidr4 cidr6 : Nat) :
    Aborts resolver (matchAddressLookup resolver ip ev target cidr4 cidr6) := by
  cases ip with
  | v4 v4 | v6 v6 => exact aborts_matchAnswer resolver h _ _ id

theorem aborts_matchHosts (cidr4 cidr6 : Nat) (hosts : List Str)
    (h : AllAnswered resolver ev.calls) :
    Aborts resolver (matchHosts resolver ip cidr4 cidr6 hosts ev) := by
  induction hosts generalizing ev with
  | nil => exact Or.inl h
  | cons host hosts ih =>
      have hreached := allAnswered_reached resolver h (Term.host host)
      rw [matchHosts]
      split
      · exact Or.inl (allAnswered_charged resolver hreached ‹_›)
      · rename_i paid hcharge
        have hlookup := aborts_matchAddressLookup resolver ip
          (allAnswered_charged resolver hreached hcharge) (normalize host) cidr4 cidr6
        split
        · rename_i hrun
          rwa [hrun] at hlookup
        · rename_i hrun
          rwa [hrun] at hlookup
        · rename_i hrun
          rw [hrun] at hlookup
          rcases hlookup with hanswered | habort
          · exact ih hanswered
          · cases habort

theorem aborts_includeOutcome {run : SpfResult × Evaluator} (h : Stops resolver run) :
    Aborts resolver (includeOutcome run.1, run.2) := by
  rcases h with hanswered | htemp
  · exact Or.inl hanswered
  · apply Or.inr
    rw [htemp]
    rfl

section Recursion

variable {recurse : Evaluator -> Str -> SpfResult × Evaluator}
  (hrecurse : forall ev target, AllAnswered resolver ev.calls ->
    Stops resolver (recurse ev target))

include hrecurse

theorem aborts_evalMechanism (h : AllAnswered resolver ev.calls) (m : Mechanism)
    (currentDomain : Str) :
    Aborts resolver (evalMechanism resolver ip recurse ev m currentDomain) := by
  cases m with
  | all => exact Or.inl h
  | «include» target =>
      rw [evalMechanism]
      split
      · exact Or.inl (allAnswered_charged resolver h ‹_›)
      · exact aborts_includeOutcome resolver
          (hrecurse _ target (allAnswered_charged resolver h ‹_›))
  | ip4 net cidr | ip6 net cidr =>
      cases ip with
      | v4 v4 | v6 v6 => exact Or.inl h
  | a domain cidr4 cidr6 =>
      rw [evalMechanism]
      split
      · exact Or.inl (allAnswered_charged resolver h ‹_›)
      · exact aborts_matchAddressLookup resolver ip (allAnswered_charged resolver h ‹_›) _
          cidr4 cidr6
  | mx domain cidr4 cidr6 =>
      rw [evalMechanism]
      split
      · exact Or.inl (allAnswered_charged resolver h ‹_›)
      · rename_i paid hcharge
        have hpaid := allAnswered_charged resolver h hcharge
        dsimp only
        split
        · exact Or.inr rfl
        · rename_i hosts hanswer
          have hasked := allAnswered_snoc hpaid (Query.mx (normalize (domain.getD currentDomain)))
            (fun hfailed => by
              rw [Failed, hanswer] at hfailed
              cases hfailed)
          split
          · apply Or.inl
            rwa [calls_matchVoid]
          · exact aborts_matchHosts resolver ip cidr4 cidr6 hosts hasked
  | ptr =>
      rw [evalMechanism]
      split
      · exact Or.inl (allAnswered_charged resolver h ‹_›)
      · exact Or.inl (allAnswered_charged resolver h ‹_›)
  | «exists» target =>
      rw [evalMechanism]
      split
      · exact Or.inl (allAnswered_charged resolver h ‹_›)
      · exact aborts_matchAnswer resolver (allAnswered_charged resolver h ‹_›) _ _ id

theorem stops_evalMechanisms (currentDomain : Str) (mechanisms : List (Qualifier × Mechanism))
    (h : AllAnswered resolver ev.calls) :
    AllAnswered resolver
        (evalMechanisms resolver ip recurse currentDomain mechanisms ev).2.calls ∨
      (evalMechanisms resolver ip recurse currentDomain mechanisms ev).1 =
        some SpfResult.tempError := by
  induction mechanisms generalizing ev with
  | nil => exact Or.inl h
  | cons qm rest ih =>
      rcases qm with ⟨q, m⟩
      rw [evalMechanisms]
      split
      · exact Or.inl h
      · have haborts := aborts_evalMechanism resolver ip hrecurse
          (allAnswered_reached resolver h (Term.mechanism m)) m currentDomain
        split
        · rename_i hrun
          rw [hrun] at haborts
          rcases haborts with hanswered | habort
          · exact Or.inl hanswered
          · cases habort
        · rename_i hrun
          rw [hrun] at haborts
          rcases haborts with hanswered | habort
          · exact ih hanswered
          · cases habort
        · rename_i hrun
          rw [hrun] at haborts
          rcases haborts with hanswered | habort
          · exact Or.inl hanswered
          · cases habort
            exact Or.inr rfl

theorem stops_evalRecord (currentDomain : Str) (parsed : ParsedRecord)
    (h : AllAnswered resolver ev.calls) :
    Stops resolver (evalRecord resolver ip recurse currentDomain parsed ev) := by
  have hloop := stops_evalMechanisms resolver ip hrecurse currentDomain parsed.mechanisms h
  unfold evalRecord
  split
  · rename_i hrun
    rw [hrun] at hloop
    rcases hloop with hanswered | htemp
    · exact Or.inl hanswered
    · cases htemp
      exact Or.inr rfl
  · rename_i hrun
    rw [hrun] at hloop
    rcases hloop with hanswered | htemp
    · split
      · exact Or.inl hanswered
      · split
        · exact Or.inl hanswered
        · have hreached := fun target =>
            allAnswered_reached resolver hanswered (Term.redirect target)
          split
          · exact Or.inl (allAnswered_charged resolver (hreached _) ‹_›)
          · exact hrecurse _ _ (allAnswered_charged resolver (hreached _) ‹_›)
    · cases htemp

theorem stops_evalAnswer (currentDomain : Str) {answer : Except Unit (List Str)}
    (h : forall txts, answer = Except.ok txts -> AllAnswered resolver ev.calls) :
    Stops resolver (evalAnswer resolver ip recurse currentDomain answer ev) := by
  unfold evalAnswer
  cases answer with
  | error e => exact Or.inr rfl
  | ok txts =>
      have hanswered := h txts rfl
      dsimp only
      split
      · exact Or.inl hanswered
      · split
        · exact Or.inl hanswered
        · exact stops_evalRecord resolver ip hrecurse currentDomain _ hanswered
      · exact Or.inl hanswered

end Recursion

theorem stops_checkHost (sender : Str) {depth : Nat} (h : AllAnswered resolver ev.calls)
    (domain : Str) : Stops resolver (checkHost resolver ip sender depth ev domain) := by
  fun_induction checkHost resolver ip sender depth ev domain with
  | case1 => exact Or.inl h
  | case2 => exact Or.inl h
  | case3 depth ev domain _ _ _ _ ih =>
      apply stops_evalAnswer
      · intro after target hafter
        exact ih after target hafter
      · intro txts htxts
        apply allAnswered_snoc h _
        intro hfailed
        cases htxts.symm.trans hfailed

end Evaluator

theorem checkHost_of_failed {resolver : SpfResolver} {ip : IpAddr} {domain sender : Str}
    {front : List Query} {query : Query}
    (hasked : Asked (checkHostRun resolver ip domain sender).2.calls front query)
    (hfailed : Failed resolver front query) :
    checkHost resolver ip domain sender = SpfResult.tempError := by
  have hnew : AllAnswered resolver Evaluator.new.calls := by
    intro front query hasked
    exact absurd (List.prefix_nil.mp hasked) (List.concat_ne_nil _ _)
  rcases Evaluator.stops_checkHost resolver ip sender hnew domain with hanswered | htemp
  · exact absurd hfailed (hanswered front query hasked)
  · exact htemp

end Spf
end Gateway
end Ephor
