import Ephor.Gateway.SpfOutcomes

/-!
# What an SPF pass rests on

`check_host` answers `pass` for a domain when a `+` mechanism matches the peer, at that
domain or at one its records lead to: through an `include` of any `+` path, or through a
`redirect` of a record whose own mechanisms all fail to match.
-/

namespace Ephor
namespace Gateway
namespace Spf
namespace Evaluator

theorem IsError.ne_pass {result : SpfResult} (h : IsError result) : result ≠ SpfResult.pass := by
  intro hpass
  rw [hpass] at h
  rcases h with h | h
  · cases h
  · cases h

theorem qualifierToResult_eq_pass {q : Qualifier} (h : qualifierToResult q = SpfResult.pass) :
    q = Qualifier.pass := by
  cases q with
  | pass => rfl
  | fail | softFail | neutral => cases h

variable (resolver : SpfResolver) (ip : IpAddr)

section Recursion

variable (recurse : Evaluator -> Str -> SpfResult × Evaluator)

theorem Unmatched.decided {currentDomain : Str} {front : List (Qualifier × Mechanism)}
    {ev before : Evaluator} {m : Mechanism}
    (h : Unmatched resolver ip recurse currentDomain front ev before)
    (hplain : mechanismHasMacro m = false)
    (hmatches : Matches resolver ip recurse (before.reached (Term.mechanism m)) currentDomain m)
    (q : Qualifier) (back : List (Qualifier × Mechanism)) :
    (Evaluator.evalMechanisms resolver ip recurse currentDomain
      (front ++ (q, m) :: back) ev).1 = some (qualifierToResult q) := by
  have hmatch := (evalMechanism_eq_match resolver ip recurse).mpr hmatches
  rw [h.evalMechanisms resolver ip recurse, Evaluator.evalMechanisms, hplain]
  rcases houtcome : evalMechanism resolver ip recurse (before.reached (Term.mechanism m)) m
    currentDomain with ⟨outcome, after⟩
  rw [houtcome] at hmatch
  have hsame : outcome = MechOutcome.match := hmatch
  rw [hsame]
  rfl

theorem evalRecord_of_decided {currentDomain : Str} {parsed : ParsedRecord} {ev : Evaluator}
    {result : SpfResult}
    (h : (evalMechanisms resolver ip recurse currentDomain parsed.mechanisms ev).1 = some result) :
    (evalRecord resolver ip recurse currentDomain parsed ev).1 = result := by
  rw [evalRecord]
  rcases hloop : evalMechanisms resolver ip recurse currentDomain parsed.mechanisms ev with
    ⟨decision, after⟩
  rw [hloop] at h
  have hdecision : decision = some result := h
  rw [hdecision]

end Recursion

/-- The evaluator when the mechanisms of the record of a domain are evaluated. -/
def fetched (depth : Nat) (ev : Evaluator) (domain : Str) : Evaluator :=
  (ev.entered depth).asked (Query.txt (normalize domain))

variable (sender : Str)

/--
The domains from one to the next, from the first domain to the one whose record authorises
the peer: each record's mechanisms before the `include` or the mechanism fail to match, and
all of them do before a `redirect`.
-/
inductive Authorises : List Str -> Nat -> Evaluator -> Str -> Prop where
  | mechanism {depth : Nat} {ev before : Evaluator} {domain : Str} {parsed : ParsedRecord}
      {front back : List (Qualifier × Mechanism)} {m : Mechanism} :
      depth <= maxChainDepth -> Publishes resolver ev domain parsed ->
      parsed.mechanisms = front ++ (Qualifier.pass, m) :: back ->
      Unmatched resolver ip (checkHost resolver ip sender (depth + 1)) (normalize domain) front
        (fetched depth ev domain) before ->
      mechanismHasMacro m = false -> (forall target, m ≠ Mechanism.include target) ->
      Matches resolver ip (checkHost resolver ip sender (depth + 1))
        (before.reached (Term.mechanism m)) (normalize domain) m ->
        Authorises [domain] depth ev domain
  | «include» {chain : List Str} {depth : Nat} {ev before paid : Evaluator}
      {domain target : Str} {parsed : ParsedRecord} {front back : List (Qualifier × Mechanism)} :
      depth <= maxChainDepth -> Publishes resolver ev domain parsed ->
      parsed.mechanisms = front ++ (Qualifier.pass, Mechanism.include target) :: back ->
      Unmatched resolver ip (checkHost resolver ip sender (depth + 1)) (normalize domain) front
        (fetched depth ev domain) before ->
      mechanismHasMacro (Mechanism.include target) = false ->
      (before.reached (Term.mechanism (Mechanism.include target))).chargeLookup =
        (Except.ok (), paid) ->
      Authorises chain (depth + 1) paid target -> Authorises (domain :: chain) depth ev domain
  | redirect {chain : List Str} {depth : Nat} {ev after paid : Evaluator}
      {domain target : Str} {parsed : ParsedRecord} :
      depth <= maxChainDepth -> Publishes resolver ev domain parsed ->
      Unmatched resolver ip (checkHost resolver ip sender (depth + 1)) (normalize domain)
        parsed.mechanisms (fetched depth ev domain) after ->
      parsed.redirect = some target -> target.contains '%' = false ->
      (after.reached (Term.redirect target)).chargeLookup = (Except.ok (), paid) ->
      Authorises chain (depth + 1) paid target -> Authorises (domain :: chain) depth ev domain

theorem checkHost_of_redirect {depth : Nat} {ev after paid : Evaluator} {domain target : Str}
    {parsed : ParsedRecord} (hdepth : depth <= maxChainDepth)
    (hpublishes : Publishes resolver ev domain parsed)
    (hall : Unmatched resolver ip (checkHost resolver ip sender (depth + 1)) (normalize domain)
      parsed.mechanisms (fetched depth ev domain) after)
    (hredirect : parsed.redirect = some target) (hplain : target.contains '%' = false)
    (hcharge : (after.reached (Term.redirect target)).chargeLookup = (Except.ok (), paid)) :
    checkHost resolver ip sender depth ev domain =
      checkHost resolver ip sender (depth + 1) paid target := by
  rw [checkHost_of_publishes resolver ip sender hdepth hpublishes]
  exact evalRecord_of_follows resolver ip _
    ⟨after, hall.eq_none resolver ip _, hredirect, hplain, hcharge⟩

theorem checkHost_of_authorises {chain : List Str} {depth : Nat} {ev : Evaluator} {domain : Str}
    (h : Authorises resolver ip sender chain depth ev domain) :
    (checkHost resolver ip sender depth ev domain).1 = SpfResult.pass := by
  induction h with
  | mechanism hdepth hpublishes hsplit hfront hplain _ hmatches =>
      rw [checkHost_of_publishes resolver ip sender hdepth hpublishes]
      apply evalRecord_of_decided
      rw [hsplit]
      exact hfront.decided resolver ip _ hplain hmatches Qualifier.pass _
  | «include» hdepth hpublishes hsplit hfront hplain hcharge _ ih =>
      rw [checkHost_of_publishes resolver ip sender hdepth hpublishes]
      apply evalRecord_of_decided
      rw [hsplit]
      exact hfront.decided resolver ip _ hplain (Matches.include hcharge ih) Qualifier.pass _
  | redirect hdepth hpublishes hall hredirect hplain hcharge _ ih =>
      rw [checkHost_of_redirect resolver ip sender hdepth hpublishes hall hredirect hplain hcharge]
      exact ih

theorem authorises_of_checkHost (left : Nat) {depth : Nat}
    (hdepth : depth + left = maxChainDepth + 1) {ev : Evaluator} {domain : Str}
    (h : (checkHost resolver ip sender depth ev domain).1 = SpfResult.pass) :
    exists chain, Authorises resolver ip sender chain depth ev domain := by
  induction left generalizing depth ev domain with
  | zero =>
      rw [checkHost, if_pos (by omega)] at h
      cases h
  | succ left ih =>
      rcases checkHost_cases resolver ip sender depth ev domain with
        herror | ⟨hwithin, hunpublished | ⟨parsed, hpublishes⟩⟩
      · exact absurd h herror.ne_pass
      · rw [checkHost_of_unpublished resolver ip sender hwithin hunpublished] at h
        cases h
      · have hresult := checkHost_of_publishes resolver ip sender hwithin hpublishes
        cases evaluates resolver ip (checkHost resolver ip sender (depth + 1)) (normalize domain)
            parsed (fetched depth ev domain) with
        | fails herror =>
            rw [hresult] at h
            exact absurd h herror.ne_pass
        | neutral hneutral =>
            rw [hresult] at h
            cases hneutral.symm.trans h
        | @«match» front back q m before hsplit hfront hplain hmatches hq =>
            rw [hresult] at h
            cases qualifierToResult_eq_pass (hq.symm.trans h)
            by_cases hinclude : exists target, m = Mechanism.include target
            · rcases hinclude with ⟨target, htarget⟩
              rw [htarget] at hsplit hplain hmatches
              cases hmatches with
              | «include» hcharge hpass =>
                  rcases ih (by omega) hpass with ⟨chain, hchain⟩
                  exact ⟨domain :: chain, Authorises.include hwithin hpublishes hsplit hfront
                    hplain hcharge hchain⟩
            · exact ⟨[domain], Authorises.mechanism hwithin hpublishes hsplit hfront hplain
                (fun target htarget => hinclude ⟨target, htarget⟩) hmatches⟩
        | follows hall hredirect hplain hcharge =>
            rw [checkHost_of_redirect resolver ip sender hwithin hpublishes hall hredirect hplain
              hcharge] at h
            rcases ih (by omega) h with ⟨chain, hchain⟩
            exact ⟨domain :: chain,
              Authorises.redirect hwithin hpublishes hall hredirect hplain hcharge hchain⟩

end Evaluator

/--
`check_host` answers `pass` exactly for the domains from which a chain of records leads to
one that authorises the peer; a network test compares the first bits of two addresses.
-/
theorem checkHost_pass_iff (resolver : SpfResolver) (ip : IpAddr) (domain sender : Str) :
    (checkHost resolver ip domain sender = SpfResult.pass <->
      exists chain, Evaluator.Authorises resolver ip sender chain 0 Evaluator.new domain) ∧
    (forall (a net : BitVec 32) (cidr : Nat),
      inCidr a net cidr = true <-> SamePrefix cidr a net) ∧
    (forall (a net : BitVec 128) (cidr : Nat),
      inCidr a net cidr = true <-> SamePrefix cidr a net) := by
  refine ⟨?_, fun a net cidr => inCidr_iff a net cidr, fun a net cidr => inCidr_iff a net cidr⟩
  constructor
  · intro hpass
    exact Evaluator.authorises_of_checkHost resolver ip sender (maxChainDepth + 1)
      (Nat.zero_add _) hpass
  · intro h
    rcases h with ⟨chain, hchain⟩
    exact Evaluator.checkHost_of_authorises resolver ip sender hchain

/-- Every domain authorises every address. -/
def openResolver : SpfResolver where
  lookupTxt _ _ := .ok ["v=spf1 +all".toList]
  lookupA _ _ := .ok []
  lookupAaaa _ _ := .ok []
  lookupMx _ _ := .ok []

theorem open_domain_authorises :
    exists chain, Evaluator.Authorises openResolver (IpAddr.v4 0) [] chain 0 Evaluator.new
      "example.com".toList :=
  (checkHost_pass_iff openResolver (IpAddr.v4 0) "example.com".toList []).1.mp (by decide +kernel)

end Spf
end Gateway
end Ephor
