import Ephor.Gateway.Outbound

/-!
# The policy of one send

`requirement_for` and `allowed_mx_patterns` of `MtaStsTlsPolicy` each look the policy up anew.
`send` asks for both, so the requirement can come from an enforcing policy while the patterns
come from a lookup that found none, and no pattern means that every host is allowed.
-/

namespace Ephor
namespace Gateway
namespace Outbound

open Foundation
open Foundation.Text
open Dkim (Suite DkimKey)

/-!
# The policy as `send` asks for it
-/

def enforced : Option StsPolicy -> Option (List Str)
  | some policy => if policy.mode = .enforce then some policy.mxPatterns else none
  | none => none

def mtaStsTlsPolicy (net : StsNetwork) : TlsPolicy StsCalls where
  requirementFor domain calls :=
    let (policy, calls) := net.resolve domain calls
    (if (enforced policy).isSome then .required else .opportunistic, calls)
  allowedMxPatterns domain calls :=
    let (policy, calls) := net.resolve domain calls
    ((enforced policy).getD [], calls)

/-- The policy that `requirement_for` finds, and the one that `allowed_mx_patterns` finds
after it. -/
def firstPolicy (net : StsNetwork) (dest : Str) (calls : StsCalls) : Option StsPolicy :=
  (net.resolve dest calls).1

def secondPolicy (net : StsNetwork) (dest : Str) (calls : StsCalls) : Option StsPolicy :=
  (net.resolve dest (net.resolve dest calls).2).1

/-- The host matches an enforcing policy that was fetched in this send. -/
def Authorized (net : StsNetwork) (dest : Str) (calls : StsCalls) (host : Str) : Prop :=
  exists policy, (firstPolicy net dest calls = some policy ∨
      secondPolicy net dest calls = some policy) ∧
    policy.mode = .enforce ∧ anyPatternMatches policy.mxPatterns host = true

variable {patterns : List Str} {net : StsNetwork} {dest : Str} {calls : StsCalls}

theorem enforced_eq_some {policy : Option StsPolicy} :
    enforced policy = some patterns <->
      exists p, policy = some p ∧ p.mode = .enforce ∧ p.mxPatterns = patterns := by
  cases policy with
  | none =>
      constructor
      · intro h
        cases h
      · intro h
        rcases h with ⟨p, hp, _⟩
        cases hp
  | some p =>
      rw [enforced]
      constructor
      · intro h
        split at h
        · rename_i hmode
          cases h
          exact ⟨p, rfl, hmode, rfl⟩
        · cases h
      · intro h
        rcases h with ⟨q, hq, hmode, hpatterns⟩
        cases hq
        rw [if_pos hmode, hpatterns]

theorem patterns_of_enforced (h : enforced (net.resolve dest calls).1 = some patterns) :
    patterns ≠ [] := by
  rcases enforced_eq_some.mp h with ⟨policy, hpolicy, hmode, rfl⟩
  rcases StsNetwork.parsePolicy_of_resolve hpolicy with ⟨body, hbody⟩
  exact mxPatterns_of_parsePolicy hbody hmode

theorem eligible_nil (candidates : List MxHost) : eligible [] candidates = candidates :=
  rfl

theorem eligible_of_ne_nil (h : patterns ≠ []) (candidates : List MxHost) :
    eligible patterns candidates =
      candidates.filter fun h => anyPatternMatches patterns h.host := by
  apply if_neg
  intro hempty
  exact h (List.isEmpty_iff.mp hempty)

/-!
# What one send dials
-/

variable {S : Suite} {σ : Type}

theorem dials_sendTo (gw : OutboundGateway S σ) (signed : Bytes) (dest : Str) (s : σ) :
    (sendTo gw signed dest s).dials =
      (eligible (gw.tlsPolicy.allowedMxPatterns dest (gw.tlsPolicy.requirementFor dest s).2).1
        (gw.resolveMx dest)).head?.toList.map fun h =>
          ⟨h.host, signed, (gw.tlsPolicy.requirementFor dest s).1 == .required⟩ := by
  rw [sendTo]
  dsimp only
  cases eligible (gw.tlsPolicy.allowedMxPatterns dest (gw.tlsPolicy.requirementFor dest s).2).1
    (gw.resolveMx dest) with
  | cons h rest => rfl
  | nil =>
      dsimp only
      split
      · rfl
      · rfl

theorem report_of_no_dials {gw : OutboundGateway S σ} {signed : Bytes} {s : σ}
    (h : (sendTo gw signed dest s).dials = []) :
    exists e, (sendTo gw signed dest s).report = .failed e := by
  rw [sendTo] at h
  rw [sendTo]
  dsimp only at h
  dsimp only
  cases heligible : eligible
    (gw.tlsPolicy.allowedMxPatterns dest (gw.tlsPolicy.requirementFor dest s).2).1
    (gw.resolveMx dest) with
  | cons host rest =>
      rw [heligible] at h
      cases h
  | nil =>
      dsimp only
      split
      · exact ⟨_, rfl⟩
      · exact ⟨_, rfl⟩

theorem send_of_ok {L : Libraries} {gw : OutboundGateway S σ} {payload : Payload}
    {fromAddr toAddr : Str} {now : UInt64} {s : σ} {signed : Bytes}
    (hsigned : translateAndSign L gw.dkimKeys payload fromAddr toAddr now = .ok signed)
    (hdest : destination L toAddr = .ok dest) :
    send L gw payload fromAddr toAddr now s = sendTo gw signed dest s := by
  rw [send, hsigned]
  dsimp only
  rw [hdest]

/-- The gateway asks `MtaStsTlsPolicy`. -/
def gateway (net : StsNetwork) (keys : List (DkimKey S))
    (deliver : Str -> Bytes -> Bool -> TransportResult) (resolveMx : Str -> List MxHost) :
    OutboundGateway S StsCalls :=
  ⟨keys, mtaStsTlsPolicy net, deliver, resolveMx⟩

theorem send_gateway_of_ok {L : Libraries} {keys : List (DkimKey S)}
    {deliver : Str -> Bytes -> Bool -> TransportResult} {resolveMx : Str -> List MxHost}
    {payload : Payload} {fromAddr toAddr : Str} {now : UInt64} {signed : Bytes}
    (hsigned : translateAndSign L keys payload fromAddr toAddr now = .ok signed)
    (hdest : destination L toAddr = .ok dest) :
    send L (gateway net keys deliver resolveMx) payload fromAddr toAddr now calls =
      sendTo (gateway net keys deliver resolveMx) signed dest calls :=
  send_of_ok hsigned hdest

/-- When TLS is required, every call of the transport is for TLS and for an authorized host,
and a send without such a call fails. -/
def KeepsPolicy (net : StsNetwork) (dest : Str) (calls : StsCalls) (sent : Sent StsCalls) :
    Prop :=
  ((mtaStsTlsPolicy net).requirementFor dest calls).1 = .required ->
    (forall dial, dial ∈ sent.dials ->
      dial.requireTls = true ∧ Authorized net dest calls dial.host) ∧
    (sent.dials = [] -> exists e, sent.report = .failed e)

theorem required_iff :
    ((mtaStsTlsPolicy net).requirementFor dest calls).1 = .required <->
      exists patterns, enforced (firstPolicy net dest calls) = some patterns := by
  have hreq : ((mtaStsTlsPolicy net).requirementFor dest calls).1 =
      if (enforced (firstPolicy net dest calls)).isSome then .required else .opportunistic := rfl
  rw [hreq]
  cases henforced : enforced (firstPolicy net dest calls) with
  | none =>
      constructor
      · intro h
        cases h
      · intro h
        rcases h with ⟨patterns, hpatterns⟩
        cases hpatterns
  | some patterns => exact ⟨fun _ => ⟨patterns, rfl⟩, fun _ => rfl⟩

/-- The lookups downgrade the send: the requirement came from a policy, the patterns did not,
and the first host is none of that policy. -/
def Downgraded (net : StsNetwork) (dest : Str) (calls : StsCalls) (candidates : List MxHost) :
    Prop :=
  exists patterns host rest, enforced (firstPolicy net dest calls) = some patterns ∧
    enforced (secondPolicy net dest calls) = none ∧ candidates = host :: rest ∧
    anyPatternMatches patterns host.host = false

/-- The patterns that `send` uses. -/
def patternsUsed (net : StsNetwork) (dest : Str) (calls : StsCalls) : List Str :=
  (enforced (secondPolicy net dest calls)).getD []

theorem dials_gateway {keys : List (DkimKey S)}
    {deliver : Str -> Bytes -> Bool -> TransportResult} {resolveMx : Str -> List MxHost}
    (signed : Bytes) (dest : Str) (calls : StsCalls) :
    (sendTo (gateway net keys deliver resolveMx) signed dest calls).dials =
      (eligible (patternsUsed net dest calls) (resolveMx dest)).head?.toList.map fun h =>
        ⟨h.host, signed, ((mtaStsTlsPolicy net).requirementFor dest calls).1 == .required⟩ :=
  dials_sendTo (gateway net keys deliver resolveMx) signed dest calls

theorem authorized_of_second (hsecond : enforced (secondPolicy net dest calls) = some patterns)
    {candidates : List MxHost} {h : MxHost}
    (hmem : h ∈ eligible (patternsUsed net dest calls) candidates) :
    Authorized net dest calls h.host := by
  have hne := patterns_of_enforced hsecond
  have hused : patternsUsed net dest calls = patterns := by
    rw [patternsUsed, hsecond]
    rfl
  rw [hused, eligible_of_ne_nil hne] at hmem
  rcases enforced_eq_some.mp hsecond with ⟨policy, hpolicy, hmode, rfl⟩
  exact ⟨policy, Or.inr hpolicy, hmode, (List.mem_filter.mp hmem).2⟩

theorem authorized_iff_of_none (hfirst : enforced (firstPolicy net dest calls) = some patterns)
    (hsecond : enforced (secondPolicy net dest calls) = none) (host : Str) :
    Authorized net dest calls host <-> anyPatternMatches patterns host = true := by
  rcases enforced_eq_some.mp hfirst with ⟨policy, hpolicy, hmode, rfl⟩
  constructor
  · intro h
    rcases h with ⟨other, hother | hother, hothermode, hmatch⟩
    · rw [hpolicy] at hother
      cases hother
      exact hmatch
    · have hsome := enforced_eq_some.mpr ⟨other, hother, hothermode, rfl⟩
      rw [hsecond] at hsome
      cases hsome
  · intro hmatch
    exact ⟨policy, Or.inl hpolicy, hmode, hmatch⟩

theorem sendTo_keepsPolicy_iff {keys : List (DkimKey S)}
    {deliver : Str -> Bytes -> Bool -> TransportResult} {resolveMx : Str -> List MxHost}
    (signed : Bytes) (dest : Str) (calls : StsCalls) :
    KeepsPolicy net dest calls (sendTo (gateway net keys deliver resolveMx) signed dest calls) <->
      ¬ Downgraded net dest calls (resolveMx dest) := by
  rw [KeepsPolicy, dials_gateway]
  constructor
  · intro hkeeps hdowngraded
    rcases hdowngraded with ⟨patterns, host, rest, hfirst, hsecond, hcandidates, hmatch⟩
    have hused : patternsUsed net dest calls = [] := by
      rw [patternsUsed, hsecond]
      rfl
    have hrequired := required_iff.mpr ⟨patterns, hfirst⟩
    have hdial := (hkeeps hrequired).1
    rw [hused, eligible_nil, hcandidates] at hdial
    have hauthorized := (hdial _ List.mem_cons_self).2
    rw [authorized_iff_of_none hfirst hsecond, hmatch] at hauthorized
    cases hauthorized
  · intro hnot hrequired
    rcases required_iff.mp hrequired with ⟨patterns, hfirst⟩
    constructor
    · intro dial hdial
      rcases List.mem_map.mp hdial with ⟨h, hhead, rfl⟩
      refine ⟨beq_iff_eq.mpr hrequired, ?_⟩
      have hhost := Option.mem_toList.mp hhead
      cases hsecond : enforced (secondPolicy net dest calls) with
      | some patterns' => exact authorized_of_second hsecond (List.mem_of_mem_head? hhost)
      | none =>
          have hused : patternsUsed net dest calls = [] := by
            rw [patternsUsed, hsecond]
            rfl
          rw [hused, eligible_nil] at hhost
          rcases List.head?_eq_some_iff.mp hhost with ⟨rest, hcandidates⟩
          apply (authorized_iff_of_none hfirst hsecond h.host).mpr
          apply Bool.of_not_eq_false
          intro hmatch
          exact hnot ⟨patterns, h, rest, hfirst, hsecond, hcandidates, hmatch⟩
    · intro hnone
      apply report_of_no_dials
      rw [dials_gateway]
      exact hnone

/-- A send under `MtaStsTlsPolicy` keeps to the policy that it found exactly when its two
lookups do not downgrade it. -/
theorem send_keepsPolicy_iff (L : Libraries) (net : StsNetwork) (keys : List (DkimKey S))
    (deliver : Str -> Bytes -> Bool -> TransportResult) (resolveMx : Str -> List MxHost)
    (payload : Payload) (fromAddr toAddr : Str) (now : UInt64) (calls : StsCalls) :
    (forall dest, destination L toAddr = .ok dest ->
      KeepsPolicy net dest calls
        (send L (gateway net keys deliver resolveMx) payload fromAddr toAddr now calls)) <->
      forall signed dest,
        translateAndSign L keys payload fromAddr toAddr now = .ok signed ->
        destination L toAddr = .ok dest -> ¬ Downgraded net dest calls (resolveMx dest) := by
  cases hsigned : translateAndSign L keys payload fromAddr toAddr now with
  | error e =>
      have hsend : send L (gateway net keys deliver resolveMx) payload fromAddr toAddr now calls =
          ⟨.failed e, [], calls⟩ := by
        rw [send, show translateAndSign L (gateway net keys deliver resolveMx).dkimKeys payload
          fromAddr toAddr now = .error e from hsigned]
      constructor
      · intro _ signed dest hsome
        cases hsome
      · intro _ dest _ _
        rw [hsend]
        exact ⟨fun _ hdial => absurd hdial List.not_mem_nil, fun _ => ⟨e, rfl⟩⟩
  | ok signed =>
      constructor
      · intro h signed' dest hsome hdest
        have hkeeps := h dest hdest
        rw [send_gateway_of_ok hsigned hdest] at hkeeps
        exact (sendTo_keepsPolicy_iff signed dest calls).mp hkeeps
      · intro h dest hdest
        rw [send_gateway_of_ok hsigned hdest]
        exact (sendTo_keepsPolicy_iff signed dest calls).mpr (h signed dest rfl hdest)

/-!
The second lookup of the signal fails, as a lookup over UDP does when its answer is lost, and
the MX record of the destination points to a host that the policy does not name.
-/

/-- The libraries on the text of this message: plain names and printable ASCII stay as they
are, and the digests are those of BLAKE3 and SHA-256. -/
def plainLibraries : Libraries where
  domainToAsciiCow domain := .ok (lower domain)
  encodeDisplayName name := name
  encodeHeaderValue value := value
  formatRfc5322Date _ := "Tue, 15 Jul 2025 17:20:00 +0000".toList
  contentDigest _ :=
    FixedBytes.ofNat 0xea8f163db38682925e4491c5e58d4bb3506ef8c14eb78a86e908c5624a67200f

def plainSuite : Suite where
  SigningKey := Unit
  sha256 b :=
    if b = bytesOf "hello\r\n" then
      FixedBytes.ofNat 0xcd2eca3535741f27a8ae40c31b0c41d4057a7a7b912b33b9aed86485d1c84676
    else
      FixedBytes.ofNat 0xdd857d08697862965663e2b49a4b40696fef9b472780f9694ad2a32c54d71e68
  sign _ _ :=
    FixedBytes.ofNat (0x449fe727923130af533a6b57152be0b5c1d013cc3ede236fec977456d4acb7f1 <<< 256 +
      0xcbea55d32daa510e474ddba5bd22a47c894e2b93907a57bae66633bfe16f8a0b)
  verifyingKey _ := Dkim.greetingKey
  validKey _ := true
  verifies _ _ _ := true

def plainPayload : Payload where
  subject := some "hi".toList
  mime := none
  body := bytesOf "hello"

def plainKey : DkimKey plainSuite :=
  ⟨"sender.example".toList, "s1".toList, ()⟩

def lossyNetwork : StsNetwork where
  lookupTxt n _ := if n = 0 then ["v=STSv1; id=20250715".toList] else []
  fetchPolicy _ _ :=
    some "version: STSv1\nmode: enforce\nmx: mail.example.com\nmax_age: 604800\n".toList

def otherMx (_ : Str) : List MxHost :=
  [⟨"mx.attacker.net".toList, 10⟩]

def accepts (_ : Str) (_ : Bytes) (_ : Bool) : TransportResult :=
  .delivered 250

/-- The second lookup is lost too, but the destination has no host to downgrade to. -/
theorem lost_answer_without_hosts :
    forall dest, destination plainLibraries "bob@example.com".toList = .ok dest ->
      KeepsPolicy lossyNetwork dest ⟨0, 0⟩
        (send plainLibraries (gateway lossyNetwork [plainKey] accepts fun _ => []) plainPayload
          "alice@sender.example".toList "bob@example.com".toList 1752600000000 ⟨0, 0⟩) := by
  apply (send_keepsPolicy_iff _ _ _ _ _ _ _ _ _ _).mpr
  rintro _ _ _ _ ⟨_, _, _, _, _, hhosts, _⟩
  cases hhosts

theorem lost_answer_downgrades :
    ¬ forall dest, destination plainLibraries "bob@example.com".toList = .ok dest ->
      KeepsPolicy lossyNetwork dest ⟨0, 0⟩
        (send plainLibraries (gateway lossyNetwork [plainKey] accepts otherMx) plainPayload
          "alice@sender.example".toList "bob@example.com".toList 1752600000000 ⟨0, 0⟩) := by
  have hdest : destination plainLibraries "bob@example.com".toList = .ok "example.com".toList := by
    decide +kernel
  have hsigned : (translateAndSign plainLibraries [plainKey] plainPayload
      "alice@sender.example".toList "bob@example.com".toList 1752600000000).isOk = true := by
    decide +kernel
  have hfirst : enforced (firstPolicy lossyNetwork "example.com".toList ⟨0, 0⟩) =
      some ["mail.example.com".toList] := by
    decide +kernel
  have hsecond : enforced (secondPolicy lossyNetwork "example.com".toList ⟨0, 0⟩) = none := by
    decide +kernel
  have hmatch : anyPatternMatches ["mail.example.com".toList] "mx.attacker.net".toList = false := by
    decide +kernel
  intro h
  cases hresult : translateAndSign plainLibraries [plainKey] plainPayload
      "alice@sender.example".toList "bob@example.com".toList 1752600000000 with
  | error e =>
      rw [hresult] at hsigned
      cases hsigned
  | ok signed =>
      have hkeeps := h _ hdest
      rw [send_gateway_of_ok hresult hdest] at hkeeps
      exact (sendTo_keepsPolicy_iff signed _ _).mp hkeeps
        ⟨_, ⟨"mx.attacker.net".toList, 10⟩, [], hfirst, hsecond, rfl, hmatch⟩

end Outbound
end Gateway
end Ephor
