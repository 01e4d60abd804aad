import Ephor.Gateway.SpfOutcomes

/-!
# When SPF answers none

`check_host` answers `none` for a domain without a policy.  What a record says never is
`none`: an `include` of a domain without a policy is a `permError`.  A `redirect=`
hands the answer of its target on as it is, though, so a domain with a record evaluates to
`none` as well when the redirects from it run dry.
-/

namespace Ephor
namespace Gateway
namespace Spf
variable {ev : Evaluator} {depth : Nat} {domain : Str}

namespace Evaluator

theorem IsError.ne_none {result : SpfResult} (h : IsError result) : result ≠ SpfResult.none := by
  intro hnone
  rw [hnone] at h
  rcases h with h | h
  · cases h
  · cases h

theorem qualifierToResult_ne_none (q : Qualifier) : qualifierToResult q ≠ SpfResult.none := by
  cases q <;> decide

variable (resolver : SpfResolver) (ip : IpAddr)

section Recursion

variable (recurse : Evaluator -> Str -> SpfResult × Evaluator)

theorem follows_of_evalRecord {currentDomain : Str} {parsed : ParsedRecord}
    (h : (evalRecord resolver ip recurse currentDomain parsed ev).1 = SpfResult.none) :
    exists target paid, Follows resolver ip recurse currentDomain parsed ev target paid := by
  cases evaluates resolver ip recurse currentDomain parsed ev with
  | fails herror => exact absurd h herror.ne_none
  | neutral hneutral =>
      rw [hneutral] at h
      cases h
  | «match» _ _ _ _ hresult =>
      rw [hresult] at h
      exact absurd h (qualifierToResult_ne_none _)
  | follows hunmatched hredirect hliteral hcharge =>
      exact ⟨_, _, _, hunmatched.eq_none resolver ip recurse, hredirect, hliteral, hcharge⟩

end Recursion

variable (sender : Str)

/-- The redirect that `check_host` follows from a domain. -/
def Redirects (depth : Nat) (ev : Evaluator) (domain target : Str) (paid : Evaluator) : Prop :=
  exists parsed, Publishes resolver ev domain parsed ∧
    Follows resolver ip (checkHost resolver ip sender (depth + 1)) (normalize domain) parsed
      ((ev.entered depth).asked (Query.txt (normalize domain))) target paid

theorem checkHost_of_redirects (hdepth : depth <= maxChainDepth) {paid : Evaluator}
    {target : Str} (h : Redirects resolver ip sender depth ev domain target paid) :
    checkHost resolver ip sender depth ev domain =
      checkHost resolver ip sender (depth + 1) paid target := by
  rcases h with ⟨parsed, hpublishes, hfollows⟩
  rw [checkHost_of_publishes resolver ip sender hdepth hpublishes]
  exact evalRecord_of_follows resolver ip _ hfollows

theorem redirects_of_checkHost
    (h : (checkHost resolver ip sender depth ev domain).1 = SpfResult.none) :
    depth <= maxChainDepth ∧ (Unpublished resolver ev domain ∨
      exists target paid, Redirects resolver ip sender depth ev domain target paid) := by
  rcases checkHost_cases resolver ip sender depth ev domain with
    herror | ⟨hdepth, hunpublished | ⟨parsed, hpublishes⟩⟩
  · exact absurd h herror.ne_none
  · exact ⟨hdepth, Or.inl hunpublished⟩
  · rw [checkHost_of_publishes resolver ip sender hdepth hpublishes] at h
    rcases follows_of_evalRecord resolver ip _ h with ⟨target, paid, hfollows⟩
    exact ⟨hdepth, Or.inr ⟨target, paid, parsed, hpublishes, hfollows⟩⟩

/-- The redirects from a domain end, within the chain limit, at one without a policy. -/
inductive RunsDry : Nat -> Evaluator -> Str -> Prop where
  | here {depth : Nat} {ev paid : Evaluator} {domain target : Str} :
      depth < maxChainDepth -> Redirects resolver ip sender depth ev domain target paid ->
        Unpublished resolver paid target -> RunsDry depth ev domain
  | next {depth : Nat} {ev paid : Evaluator} {domain target : Str} :
      Redirects resolver ip sender depth ev domain target paid ->
        RunsDry (depth + 1) paid target -> RunsDry depth ev domain

theorem RunsDry.depth_lt (h : RunsDry resolver ip sender depth ev domain) :
    depth < maxChainDepth := by
  induction h with
  | here hdepth => exact hdepth
  | next _ _ ih => exact Nat.lt_of_succ_lt ih

theorem RunsDry.not_unpublished (h : RunsDry resolver ip sender depth ev domain) :
    Not (Unpublished resolver ev domain) := by
  cases h with
  | here _ hredirects | next hredirects =>
      rcases hredirects with ⟨parsed, hpublishes, _⟩
      exact hpublishes.not_unpublished

theorem checkHost_of_runsDry (h : RunsDry resolver ip sender depth ev domain) :
    (checkHost resolver ip sender depth ev domain).1 = SpfResult.none := by
  induction h with
  | here hdepth hredirects hunpublished =>
      rw [checkHost_of_redirects resolver ip sender (Nat.le_of_lt hdepth) hredirects]
      exact checkHost_of_unpublished resolver ip sender hdepth hunpublished
  | next hredirects hdry ih =>
      have hdepth := Nat.lt_of_succ_lt hdry.depth_lt
      rw [checkHost_of_redirects resolver ip sender (Nat.le_of_lt hdepth) hredirects]
      exact ih

theorem checkHost_none_cases (left : Nat) (hdepth : depth + left = maxChainDepth + 1)
    (h : (checkHost resolver ip sender depth ev domain).1 = SpfResult.none) :
    Unpublished resolver ev domain ∨ RunsDry resolver ip sender depth ev domain := by
  induction left generalizing depth ev domain with
  | zero =>
      have hwithin := (redirects_of_checkHost resolver ip sender h).1
      omega
  | succ left ih =>
      rcases redirects_of_checkHost resolver ip sender h with
        ⟨hwithin, hunpublished | ⟨target, paid, hredirects⟩⟩
      · exact Or.inl hunpublished
      · rw [checkHost_of_redirects resolver ip sender hwithin hredirects] at h
        have htarget := (redirects_of_checkHost resolver ip sender h).1
        rcases ih (by omega) h with hunpublished | hdry
        · exact Or.inr (RunsDry.here htarget hredirects hunpublished)
        · exact Or.inr (RunsDry.next hredirects hdry)

end Evaluator

/--
`check_host` answers `none` for the domains without a policy and no others, unless the
redirects from the domain run dry.
-/
theorem checkHost_none_iff (resolver : SpfResolver) (ip : IpAddr) (domain sender : Str) :
    (checkHost resolver ip domain sender = SpfResult.none <->
      Evaluator.Unpublished resolver Evaluator.new domain) <->
      Not (Evaluator.RunsDry resolver ip sender 0 Evaluator.new domain) := by
  constructor
  · intro hexact hdry
    apply hdry.not_unpublished
    exact hexact.mp (Evaluator.checkHost_of_runsDry resolver ip sender hdry)
  · intro hdry
    constructor
    · intro hnone
      rcases Evaluator.checkHost_none_cases resolver ip sender (maxChainDepth + 1)
        (Nat.zero_add _) hnone with hunpublished | hruns
      · exact hunpublished
      · exact absurd hruns hdry
    · exact Evaluator.checkHost_of_unpublished resolver ip sender (Nat.zero_le _)

def danglingZone : SpfResolver where
  lookupTxt _ name :=
    Except.ok (if name = "a.example".toList then ["v=spf1 redirect=b.example".toList] else [])
  lookupA _ _ := Except.ok []
  lookupAaaa _ _ := Except.ok []
  lookupMx _ _ := Except.ok []

theorem dangling_redirect_is_none :
    checkHost danglingZone (IpAddr.v4 0xC0000201#32) "a.example".toList [] = SpfResult.none ∧
      Not (Evaluator.Unpublished danglingZone Evaluator.new "a.example".toList) := by
  constructor
  · decide +kernel
  · intro hunpublished
    rcases hunpublished with hempty | ⟨txts, htxts, hfilter⟩
    · exact absurd hempty (by decide)
    · have hanswer : danglingZone.lookupTxt [] (normalize "a.example".toList) =
          Except.ok ["v=spf1 redirect=b.example".toList] := by decide +kernel
      change danglingZone.lookupTxt [] (normalize "a.example".toList) = _ at htxts
      rw [hanswer] at htxts
      cases htxts
      exact absurd hfilter (by decide +kernel)

end Spf
end Gateway
end Ephor
