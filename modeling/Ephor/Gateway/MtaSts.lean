import Ephor.Foundation.Lines
import Ephor.Gateway.Inbound

/-!
# MTA-STS policies

`pier-gateway/src/mta_sts.rs`: the text of a policy, the patterns for MX hosts, and the two
lookups by which the policy of a domain is found.  Every lookup goes out over the network
again, so each call may get another answer.
-/

namespace Ephor
namespace Gateway

open Foundation
open Foundation.Text

/-!
# The text of a policy
-/

inductive PolicyMode where
  | enforce
  | testing
  | none
deriving DecidableEq

structure StsPolicy where
  mode : PolicyMode
  mxPatterns : List Str
  maxAge : Nat
deriving DecidableEq

inductive StsParseError where
  | malformedLine
  | missingVersion
  | unsupportedVersion (version : Str)
  | missingMode
  | unknownMode (mode : Str)
  | noMxPatterns
deriving DecidableEq

/-- What one line ending leaves of a line: the return before the line feed goes too. -/
def withoutReturn (line : Str) : Str :=
  if line.getLast? = some '\r' then line.dropLast else line

/-- `str::lines`: a last line without a line feed counts if it is not empty. -/
def strLines (text : Str) : List Str :=
  let (lines, last) := Lines.split '\n' text
  lines.map withoutReturn ++ if last.isEmpty then [] else [last]

structure PolicyFields where
  version : Option Str
  mode : Option PolicyMode
  mxPatterns : List Str
  maxAge : Option Nat

def policyMode (value : Str) : Except StsParseError PolicyMode :=
  if value = "enforce".toList then .ok .enforce
  else if value = "testing".toList then .ok .testing
  else if value = "none".toList then .ok .none
  else .error (.unknownMode value)

/-- One line of a policy; the keys that are not known are ignored. -/
def policyLine (fields : PolicyFields) (raw : Str) : Except StsParseError PolicyFields :=
  let line := trim raw
  if line.isEmpty then
    .ok fields
  else
    match splitOnce ':' line with
    | none => .error .malformedLine
    | some (key, value) =>
        let key := trim key
        let value := trim value
        if key = "version".toList then
          .ok { fields with version := some value }
        else if key = "mode".toList then
          (policyMode value).map fun mode => { fields with mode := some mode }
        else if key = "mx".toList then
          .ok { fields with mxPatterns := fields.mxPatterns ++ [value] }
        else if key = "max_age".toList then
          .ok { fields with maxAge := parseUnsigned (2 ^ 64 - 1) value }
        else
          .ok fields

/-- What is required of all lines together. -/
def checkFields (fields : PolicyFields) : Except StsParseError StsPolicy :=
  match fields.version with
  | none => .error .missingVersion
  | some version =>
      if version = "STSv1".toList then
        match fields.mode with
        | none => .error .missingMode
        | some mode =>
            if mode ≠ .none ∧ fields.mxPatterns.isEmpty then
              .error .noMxPatterns
            else
              .ok ⟨mode, fields.mxPatterns, fields.maxAge.getD 86400⟩
      else
        .error (.unsupportedVersion version)

def parsePolicy (text : Str) : Except StsParseError StsPolicy :=
  ((strLines text).foldlM policyLine ⟨none, none, [], none⟩).bind checkFields

theorem mxPatterns_of_parsePolicy {text : Str} {policy : StsPolicy}
    (h : parsePolicy text = .ok policy) (hmode : policy.mode = .enforce) :
    policy.mxPatterns ≠ [] := by
  rcases bind_eq_ok.mp h with ⟨fields, _, hfields⟩
  rw [checkFields] at hfields
  split at hfields
  · cases hfields
  split at hfields
  · split at hfields
    · cases hfields
    · split at hfields
      · cases hfields
      · rename_i mode _ hpatterns
        cases hfields
        intro hnil
        apply hpatterns
        constructor
        · intro hnone
          rw [hnone] at hmode
          cases hmode
        · exact List.isEmpty_iff.mpr hnil
  · cases hfields

/-!
# Patterns
-/

def mxPatternMatches (pattern host : Str) : Bool :=
  let pattern := (trim pattern).rdropWhile (· == '.')
  let host := (trim host).rdropWhile (· == '.')
  match stripPrefix "*.".toList pattern with
  | some suffix =>
      match stripSuffix ('.' :: lower suffix) (lower host) with
      | some label => !label.isEmpty && !label.contains '.'
      | none => false
  | none => eqIgnoreCase pattern host

def anyPatternMatches (patterns : List Str) (host : Str) : Bool :=
  patterns.any fun pattern => mxPatternMatches pattern host

/-!
# Finding the policy of a domain
-/

/-- What the lookups answer, each numbered among the lookups of its kind. -/
structure StsNetwork where
  lookupTxt : Nat -> Str -> List Str
  fetchPolicy : Nat -> Str -> Option Str

/-- How many lookups were made. -/
structure StsCalls where
  txts : Nat
  fetches : Nat
deriving DecidableEq

namespace StsNetwork

def resolve (net : StsNetwork) (domain : Str) (calls : StsCalls) : Option StsPolicy × StsCalls :=
  let answers := net.lookupTxt calls.txts ("_mta-sts.".toList ++ domain)
  let calls := { calls with txts := calls.txts + 1 }
  if answers.any fun v => "v=STSv1".toList.isPrefixOf (v.dropWhile isWhiteSpace) then
    match net.fetchPolicy calls.fetches domain with
    | none => (none, { calls with fetches := calls.fetches + 1 })
    | some body => ((parsePolicy body).toOption, { calls with fetches := calls.fetches + 1 })
  else
    (none, calls)

theorem parsePolicy_of_resolve {net : StsNetwork} {domain : Str} {calls : StsCalls}
    {policy : StsPolicy} (h : (net.resolve domain calls).1 = some policy) :
    exists body, parsePolicy body = .ok policy := by
  rw [resolve] at h
  split at h
  · split at h
    · cases h
    · rename_i body _
      cases hparse : parsePolicy body with
      | error e =>
          rw [hparse] at h
          cases h
      | ok parsed =>
          rw [hparse] at h
          cases h
          exact ⟨body, hparse⟩
  · cases h

end StsNetwork

end Gateway
end Ephor
