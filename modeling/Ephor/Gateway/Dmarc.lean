import Ephor.Gateway.Inbound

/-!
# DMARC

`pier-gateway/src/dmarc.rs`: the policy that a sender's domain publishes, and whether an
authenticated domain is aligned with that of the sender.  The public suffix list is a table of
another crate and stands as a parameter.
-/

namespace Ephor
namespace Gateway
namespace Dmarc

open Foundation
open Foundation.Text

inductive DmarcPolicy where
  | none
  | quarantine
  | reject
deriving DecidableEq

def toDisposition : DmarcPolicy -> DmarcDisposition
  | DmarcPolicy.none => DmarcDisposition.none
  | DmarcPolicy.quarantine => DmarcDisposition.quarantine
  | DmarcPolicy.reject => DmarcDisposition.reject

structure DmarcRecord where
  policy : DmarcPolicy
  subdomainPolicy : Option DmarcPolicy
  dkimStrict : Bool
  spfStrict : Bool
  pct : Nat
deriving DecidableEq

/-- `DmarcTxtResolver`: what it answers to each query of a run, which may depend on the time. -/
abbrev DmarcTxtResolver := Nat -> Str -> List Str

/-!
## Domains
-/

def normalize (domain : Str) : Str :=
  lower ((trim domain).rdropWhile (· == '.'))

section

-- `psl::domain_str`, whose table is not part of the source.
variable (domainStr : Str -> Option Str)

def organizationalDomain (domain : Str) : Str :=
  let d := normalize domain
  match domainStr d with
  | some registrable => registrable
  | none => d

def domainsAligned (authDomain headerDomain : Str) (strict : Bool) : Bool :=
  if strict then
    eqIgnoreCase authDomain headerDomain
  else
    match domainStr (normalize authDomain), domainStr (normalize headerDomain) with
    | some orgAuth, some orgHeader => eqIgnoreCase orgAuth orgHeader
    | _, _ => eqIgnoreCase authDomain headerDomain

end

/-!
## Records
-/

def isDmarc1Record (t : Str) : Bool :=
  let t := trim t
  t == "v=DMARC1".toList || "v=DMARC1;".toList.isPrefixOf t || "v=DMARC1 ".toList.isPrefixOf t

def parsePolicyValue (v : Str) : Option DmarcPolicy :=
  if v = "none".toList then some DmarcPolicy.none
  else if v = "quarantine".toList then some DmarcPolicy.quarantine
  else if v = "reject".toList then some DmarcPolicy.reject
  else none

/-- `s` or `r`. -/
def parseStrict (v : Str) : Option Bool :=
  if v = "s".toList then some true
  else if v = "r".toList then some false
  else none

/-- The variables of `parse_record`. -/
structure Tags where
  policy : Option DmarcPolicy
  sp : Option DmarcPolicy
  adkimStrict : Bool
  aspfStrict : Bool
  pct : Nat
  sawVersion : Bool

def Tags.start : Tags :=
  ⟨none, none, false, false, 100, false⟩

def parseTag (tags : Tags) (tag : Str) : Option Tags :=
  let tag := trim tag
  if tag.isEmpty then
    some tags
  else do
    let (k, v) <- splitOnce '=' tag
    let k := trim k
    let v := trim v
    if k = "v".toList then
      if v = "DMARC1".toList then some { tags with sawVersion := true } else none
    else if k = "p".toList then do
      let policy <- parsePolicyValue v
      return { tags with policy := some policy }
    else if k = "sp".toList then do
      let policy <- parsePolicyValue v
      return { tags with sp := some policy }
    else if k = "adkim".toList then do
      let strict <- parseStrict v
      return { tags with adkimStrict := strict }
    else if k = "aspf".toList then do
      let strict <- parseStrict v
      return { tags with aspfStrict := strict }
    else if k = "pct".toList then do
      let n <- parseUnsigned 255 v
      if 100 < n then none else some { tags with pct := n }
    else
      some tags

def parseRecord (txt : Str) : Option DmarcRecord := do
  let tags <- (txt.splitOn ';').foldlM parseTag Tags.start
  if !tags.sawVersion then
    none
  else
    let policy <- tags.policy
    return ⟨policy, tags.sp, tags.adkimStrict, tags.aspfStrict, tags.pct⟩

/-!
## Discovery
-/

inductive LookupAt where
  | found (record : DmarcRecord)
  | notFound
  | permError

inductive Discovery where
  | found (record : DmarcRecord) (isSubdomain : Bool)
  | none
  | permError

def lookupAt (lookupTxt : Str -> List Str) (domain : Str) : LookupAt :=
  match (lookupTxt ("_dmarc.".toList ++ normalize domain)).filter isDmarc1Record with
  | [] => LookupAt.notFound
  | [candidate] =>
      match parseRecord candidate with
      | some r => LookupAt.found r
      | none => LookupAt.permError
  | _ => LookupAt.permError

variable (domainStr : Str -> Option Str)

def discover (resolver : DmarcTxtResolver) (headerDomain : Str) : Discovery :=
  match lookupAt (resolver 0) headerDomain with
  | LookupAt.found record => Discovery.found record false
  | LookupAt.permError => Discovery.permError
  | LookupAt.notFound =>
      let org := organizationalDomain domainStr headerDomain
      if !eqIgnoreCase headerDomain org then
        match lookupAt (resolver 1) org with
        | LookupAt.found record => Discovery.found record true
        | LookupAt.permError => Discovery.permError
        | LookupAt.notFound => Discovery.none
      else
        Discovery.none

def evaluate (resolver : DmarcTxtResolver) (headerFromDomain envelopeDomain : Str)
    (spfResult : Option SpfResult) (dkimVerdict : DkimVerdict) : DmarcVerdict :=
  match discover domainStr resolver headerFromDomain with
  | Discovery.none => DmarcVerdict.noPolicy
  | Discovery.permError => DmarcVerdict.permError
  | Discovery.found record isSubdomain =>
      let spfAligned := spfResult == some SpfResult.pass && !envelopeDomain.isEmpty &&
        domainsAligned domainStr envelopeDomain headerFromDomain record.spfStrict
      let dkimAligned := match dkimVerdict with
        | DkimVerdict.pass domain _ =>
            domainsAligned domainStr domain headerFromDomain record.dkimStrict
        | _ => false
      if spfAligned || dkimAligned then
        DmarcVerdict.pass
      else
        let effectivePolicy :=
          if isSubdomain then record.subdomainPolicy.getD record.policy else record.policy
        DmarcVerdict.fail (toDisposition effectivePolicy)

/-!
## Alignment

Names are equal up to letter case, so this is an equivalence, and the organizational domains do
not tell such names apart.
-/

/-- The registrable domain is the end of the name in lower case. -/
def EndsOfNames (domainStr : Str -> Option Str) : Prop :=
  forall domain registrable, domainStr domain = some registrable ->
    registrable.isSuffixOf (lower domain) = true

theorem eqIgnoreCase_refl (a : Str) : eqIgnoreCase a a = true :=
  beq_self_eq_true (upper a)

variable {a b headerDomain envelopeDomain : Str} {resolver : DmarcTxtResolver}
    {spfResult : Option SpfResult}

theorem eqIgnoreCase_symm (h : eqIgnoreCase a b = true) : eqIgnoreCase b a = true :=
  beq_iff_eq.mpr (eq_of_beq h).symm

theorem eqIgnoreCase_trans {c : Str} (h : eqIgnoreCase a b = true)
    (h' : eqIgnoreCase b c = true) : eqIgnoreCase a c = true :=
  beq_iff_eq.mpr ((eq_of_beq h).trans (eq_of_beq h'))

theorem normalize_eq (domain : Str) :
    normalize domain = (trim (lower domain)).rdropWhile (· == '.') := by
  have hdot : (fun c => c == '.') ∘ Char.toLower = fun c => c == '.' := by
    funext c
    apply Bool.eq_iff_iff.mpr
    rw [Function.comp_apply, beq_iff_eq, beq_iff_eq, toLower_eq_iff (by decide)]
  have hmap : forall text : Str,
      lower (text.rdropWhile (· == '.')) = (lower text).rdropWhile (· == '.') := by
    intro text
    rw [lower, lower, List.rdropWhile, List.rdropWhile, List.map_reverse, <- hdot,
      <- List.dropWhile_map, hdot, List.map_reverse]
  rw [normalize, hmap, lower_trim]

theorem normalize_congr (h : eqIgnoreCase a b = true) : normalize a = normalize b := by
  rw [normalize_eq, normalize_eq, lower_eq_of_eqIgnoreCase h]

theorem lower_eq_self_of_suffix {text registrable : Str}
    (h : registrable.isSuffixOf (lower text) = true) : lower registrable = registrable := by
  rcases List.isSuffixOf_iff_suffix.mp h with ⟨front, hfront⟩
  have hlower := lower_lower text
  rw [<- hfront] at hlower
  have happend : lower (front ++ registrable) = lower front ++ lower registrable :=
    List.map_append
  rw [happend] at hlower
  have hlength : (lower front).length = front.length := List.length_map _
  exact (List.append_inj hlower hlength).2

variable {domainStr}

theorem domainsAligned_of_eq (h : eqIgnoreCase a b = true) (strict : Bool) :
    domainsAligned domainStr a b strict = true := by
  cases strict with
  | true => exact h
  | false =>
      rw [domainsAligned, if_neg Bool.false_ne_true, normalize_congr h]
      cases domainStr (normalize b) with
      | none => exact h
      | some registrable => exact eqIgnoreCase_refl registrable

theorem relaxed_of_strict (h : domainsAligned domainStr a b true = true) :
    domainsAligned domainStr a b false = true :=
  domainsAligned_of_eq h false

theorem domainsAligned_iff :
    domainsAligned domainStr a b false = true <->
      eqIgnoreCase a b = true ∨ exists x y, domainStr (normalize a) = some x ∧
        domainStr (normalize b) = some y ∧ eqIgnoreCase x y = true := by
  constructor
  · intro h
    rw [domainsAligned, if_neg Bool.false_ne_true] at h
    split at h
    · rename_i x y hx hy
      exact Or.inr ⟨x, y, hx, hy, h⟩
    · exact Or.inl h
  · intro h
    rcases h with heq | ⟨x, y, hx, hy, hxy⟩
    · exact domainsAligned_of_eq heq false
    · rw [domainsAligned, if_neg Bool.false_ne_true, hx, hy]
      exact hxy

theorem domainsAligned_equivalence (strict : Bool) :
    Equivalence fun a b => domainsAligned domainStr a b strict = true where
  refl a := domainsAligned_of_eq (eqIgnoreCase_refl a) strict
  symm := by
    intro a b h
    cases strict with
    | true => exact eqIgnoreCase_symm h
    | false =>
        apply domainsAligned_iff.mpr
        rcases domainsAligned_iff.mp h with heq | ⟨x, y, hx, hy, hxy⟩
        · exact Or.inl (eqIgnoreCase_symm heq)
        · exact Or.inr ⟨y, x, hy, hx, eqIgnoreCase_symm hxy⟩
  trans := by
    intro a b c hab hbc
    cases strict with
    | true => exact eqIgnoreCase_trans hab hbc
    | false =>
        apply domainsAligned_iff.mpr
        rcases domainsAligned_iff.mp hab with hab | ⟨x, y, hx, hy, hxy⟩
        · rcases domainsAligned_iff.mp hbc with hbc | ⟨y, z, hy, hz, hyz⟩
          · exact Or.inl (eqIgnoreCase_trans hab hbc)
          · rw [<- normalize_congr hab] at hy
            exact Or.inr ⟨y, z, hy, hz, hyz⟩
        · rcases domainsAligned_iff.mp hbc with hbc | ⟨y', z, hy', hz, hyz⟩
          · rw [normalize_congr hbc] at hy
            exact Or.inr ⟨x, y, hx, hy, hxy⟩
          · rw [hy] at hy'
            cases hy'
            exact Or.inr ⟨x, z, hx, hz, eqIgnoreCase_trans hxy hyz⟩

theorem registrable_of_aligned (hends : EndsOfNames domainStr)
    (h : domainsAligned domainStr a b false = true) (hne : eqIgnoreCase a b = false) :
    exists registrable, domainStr (normalize a) = some registrable ∧
      domainStr (normalize b) = some registrable := by
  rcases domainsAligned_iff.mp h with heq | ⟨x, y, hx, hy, hxy⟩
  · rw [hne] at heq
    cases heq
  · have hlower := lower_eq_of_eqIgnoreCase hxy
    rw [lower_eq_self_of_suffix (hends _ _ hx), lower_eq_self_of_suffix (hends _ _ hy)] at hlower
    rw [hlower] at hx
    exact ⟨y, hx, hy⟩

/-!
## The verdict
-/

def RecordAt (lookupTxt : Str -> List Str) (domain : Str) (record : DmarcRecord) : Prop :=
  exists txt, (lookupTxt ("_dmarc.".toList ++ normalize domain)).filter isDmarc1Record = [txt] ∧
    parseRecord txt = some record

def NothingAt (lookupTxt : Str -> List Str) (domain : Str) : Prop :=
  (lookupTxt ("_dmarc.".toList ++ normalize domain)).filter isDmarc1Record = []

theorem lookupAt_eq_found {lookupTxt : Str -> List Str} {domain : Str} {record : DmarcRecord} :
    lookupAt lookupTxt domain = LookupAt.found record <-> RecordAt lookupTxt domain record := by
  unfold lookupAt RecordAt
  cases (lookupTxt ("_dmarc.".toList ++ normalize domain)).filter isDmarc1Record with
  | nil =>
      constructor
      · intro h
        cases h
      · intro h
        rcases h with ⟨txt, hnil, _⟩
        cases hnil
  | cons txt others =>
      cases others with
      | nil =>
          dsimp only
          constructor
          · intro h
            split at h
            · rename_i r hr
              cases h
              exact ⟨txt, rfl, hr⟩
            · cases h
          · intro h
            rcases h with ⟨txt', htxt, hrecord⟩
            cases htxt
            rw [hrecord]
      | cons second others =>
          constructor
          · intro h
            cases h
          · intro h
            rcases h with ⟨txt', htxt, _⟩
            cases htxt

theorem lookupAt_eq_notFound {lookupTxt : Str -> List Str} {domain : Str} :
    lookupAt lookupTxt domain = LookupAt.notFound <-> NothingAt lookupTxt domain := by
  unfold lookupAt NothingAt
  cases (lookupTxt ("_dmarc.".toList ++ normalize domain)).filter isDmarc1Record with
  | nil => exact ⟨fun _ => rfl, fun _ => rfl⟩
  | cons txt others =>
      cases others with
      | nil =>
          dsimp only
          constructor
          · intro h
            split at h <;> cases h
          · intro h
            cases h
      | cons second others =>
          constructor
          · intro h
            cases h
          · intro h
            cases h

variable (domainStr)

inductive Discovered (resolver : DmarcTxtResolver) (headerDomain : Str) :
    DmarcRecord -> Bool -> Prop where
  | exact {record : DmarcRecord} :
      RecordAt (resolver 0) headerDomain record ->
      Discovered resolver headerDomain record false
  | organizational {record : DmarcRecord} :
      NothingAt (resolver 0) headerDomain ->
      eqIgnoreCase headerDomain (organizationalDomain domainStr headerDomain) = false ->
      RecordAt (resolver 1) (organizationalDomain domainStr headerDomain) record ->
      Discovered resolver headerDomain record true

variable {domainStr}

theorem discover_eq_found {record : DmarcRecord} {isSubdomain : Bool} :
    discover domainStr resolver headerDomain = Discovery.found record isSubdomain <->
      Discovered domainStr resolver headerDomain record isSubdomain := by
  constructor
  · intro h
    unfold discover at h
    split at h
    · rename_i found hfound
      cases h
      exact Discovered.exact (lookupAt_eq_found.mp hfound)
    · cases h
    · rename_i hnothing
      dsimp only at h
      split at h
      · rename_i hother
        split at h
        · rename_i found hfound
          cases h
          exact Discovered.organizational (lookupAt_eq_notFound.mp hnothing)
            ((Bool.not_eq_true' _).mp hother) (lookupAt_eq_found.mp hfound)
        · cases h
        · cases h
      · cases h
  · intro h
    cases h with
    | exact hrecord => rw [discover, lookupAt_eq_found.mpr hrecord]
    | organizational hnothing hother hrecord =>
        rw [discover, lookupAt_eq_notFound.mpr hnothing]
        dsimp only
        rw [hother, lookupAt_eq_found.mpr hrecord]
        rfl

variable (domainStr)

def Authenticated (headerDomain envelopeDomain : Str) (spfResult : Option SpfResult)
    (dkimVerdict : DkimVerdict) (record : DmarcRecord) : Prop :=
  (spfResult = some SpfResult.pass ∧ envelopeDomain ≠ [] ∧
    domainsAligned domainStr envelopeDomain headerDomain record.spfStrict = true) ∨
  exists domain selector, dkimVerdict = DkimVerdict.pass domain selector ∧
    domainsAligned domainStr domain headerDomain record.dkimStrict = true

def effectivePolicy (record : DmarcRecord) (isSubdomain : Bool) : DmarcPolicy :=
  if isSubdomain then record.subdomainPolicy.getD record.policy else record.policy

variable {domainStr}

theorem spfAligned_iff {strict : Bool} :
    (spfResult == some SpfResult.pass && !envelopeDomain.isEmpty &&
        domainsAligned domainStr envelopeDomain headerDomain strict) = true <->
      spfResult = some SpfResult.pass ∧ envelopeDomain ≠ [] ∧
        domainsAligned domainStr envelopeDomain headerDomain strict = true := by
  rw [Bool.and_eq_true, Bool.and_eq_true, beq_iff_eq, Bool.not_eq_true',
    List.isEmpty_eq_false_iff, and_assoc]

theorem evaluate_found {dkimVerdict : DkimVerdict} {record : DmarcRecord} {isSubdomain : Bool}
    (h : Discovered domainStr resolver headerDomain record isSubdomain) :
    (Authenticated domainStr headerDomain envelopeDomain spfResult dkimVerdict record ->
      evaluate domainStr resolver headerDomain envelopeDomain spfResult dkimVerdict =
        DmarcVerdict.pass) ∧
    (¬ Authenticated domainStr headerDomain envelopeDomain spfResult dkimVerdict record ->
      evaluate domainStr resolver headerDomain envelopeDomain spfResult dkimVerdict =
        DmarcVerdict.fail (toDisposition (effectivePolicy record isSubdomain))) := by
  rw [evaluate, discover_eq_found.mpr h]
  dsimp only
  have hverdict : forall dkimAligned : Bool,
      (dkimAligned = true <-> exists domain selector,
        dkimVerdict = DkimVerdict.pass domain selector ∧
          domainsAligned domainStr domain headerDomain record.dkimStrict = true) ->
      ((spfResult == some SpfResult.pass && !envelopeDomain.isEmpty &&
          domainsAligned domainStr envelopeDomain headerDomain record.spfStrict ||
        dkimAligned) = true <->
      Authenticated domainStr headerDomain envelopeDomain spfResult dkimVerdict record) := by
    intro dkimAligned hdkim
    rw [Bool.or_eq_true, spfAligned_iff, hdkim]
    rfl
  have hnone : (forall domain selector, dkimVerdict ≠ DkimVerdict.pass domain selector) ->
      (false = true <-> exists domain selector,
        dkimVerdict = DkimVerdict.pass domain selector ∧
          domainsAligned domainStr domain headerDomain record.dkimStrict = true) := by
    intro hother
    constructor
    · intro hfalse
      cases hfalse
    · intro hpass
      rcases hpass with ⟨domain, selector, heq, _⟩
      exact absurd heq (hother domain selector)
  cases dkimVerdict with
  | pass domain selector =>
      rw [<- hverdict (domainsAligned domainStr domain headerDomain record.dkimStrict)]
      · exact ⟨fun hauth => if_pos hauth, fun hauth => if_neg hauth⟩
      · constructor
        · exact fun haligned => ⟨domain, selector, rfl, haligned⟩
        · intro hpass
          rcases hpass with ⟨_, _, heq, haligned⟩
          cases heq
          exact haligned
  | fail | noSignature | keyUnavailable domain selector =>
      rw [<- hverdict false (hnone (by intro _ _ heq; cases heq))]
      exact ⟨fun hauth => if_pos hauth, fun hauth => if_neg hauth⟩

theorem evaluate_not_found
    (h : ¬ exists record isSubdomain,
      Discovered domainStr resolver headerDomain record isSubdomain) (envelopeDomain : Str)
    (spfResult : Option SpfResult) (dkimVerdict : DkimVerdict) :
    evaluate domainStr resolver headerDomain envelopeDomain spfResult dkimVerdict ≠
        DmarcVerdict.pass ∧
      forall disposition,
        evaluate domainStr resolver headerDomain envelopeDomain spfResult dkimVerdict ≠
          DmarcVerdict.fail disposition := by
  rw [evaluate]
  cases hdiscovery : discover domainStr resolver headerDomain with
  | found record isSubdomain =>
      exact absurd ⟨record, isSubdomain, discover_eq_found.mp hdiscovery⟩ h
  | none | permError => exact ⟨(fun heq => nomatch heq), (fun _ heq => nomatch heq)⟩

theorem evaluate_eq_pass {dkimVerdict : DkimVerdict} :
    evaluate domainStr resolver headerDomain envelopeDomain spfResult dkimVerdict =
        DmarcVerdict.pass <->
      exists record isSubdomain,
        Discovered domainStr resolver headerDomain record isSubdomain ∧
          Authenticated domainStr headerDomain envelopeDomain spfResult dkimVerdict record := by
  constructor
  · intro hpass
    by_cases hfound : exists record isSubdomain,
        Discovered domainStr resolver headerDomain record isSubdomain
    · rcases hfound with ⟨record, isSubdomain, hfound⟩
      refine ⟨record, isSubdomain, hfound, ?_⟩
      by_contra hauth
      rw [(evaluate_found hfound).2 hauth] at hpass
      cases hpass
    · exact absurd hpass (evaluate_not_found hfound _ _ _).1
  · intro h
    rcases h with ⟨record, isSubdomain, hfound, hauth⟩
    exact (evaluate_found hfound).1 hauth

theorem evaluate_eq_fail {dkimVerdict : DkimVerdict} {disposition : DmarcDisposition}
    (h : evaluate domainStr resolver headerDomain envelopeDomain spfResult dkimVerdict =
      DmarcVerdict.fail disposition) :
    exists record, ¬ Authenticated domainStr headerDomain envelopeDomain spfResult dkimVerdict
        record ∧
      ((RecordAt (resolver 0) headerDomain record ∧ disposition = toDisposition record.policy) ∨
        (NothingAt (resolver 0) headerDomain ∧
          RecordAt (resolver 1) (organizationalDomain domainStr headerDomain) record ∧
          disposition = toDisposition (record.subdomainPolicy.getD record.policy))) := by
  by_cases hfound : exists record isSubdomain,
      Discovered domainStr resolver headerDomain record isSubdomain
  · rcases hfound with ⟨record, isSubdomain, hfound⟩
    have hauth : ¬ Authenticated domainStr headerDomain envelopeDomain spfResult dkimVerdict
        record := by
      intro hauth
      rw [(evaluate_found hfound).1 hauth] at h
      cases h
    rw [(evaluate_found hfound).2 hauth] at h
    injection h with hdisposition
    refine ⟨record, hauth, ?_⟩
    cases hfound with
    | exact hrecord => exact Or.inl ⟨hrecord, hdisposition.symm⟩
    | organizational hnothing _ hrecord =>
        exact Or.inr ⟨hnothing, hrecord, hdisposition.symm⟩
  · exact absurd h ((evaluate_not_found hfound _ _ _).2 disposition)

/--
Alignment is an equivalence that letter case does not matter to; strictly aligned names are
aligned, and different names are aligned only under one registrable domain.  A message passes
exactly when a record is found and a domain that SPF or DKIM has authenticated is aligned, and
the policy for subdomains is used only when the record is that of the organizational domain.
-/
theorem dmarc_verdict (domainStr : Str -> Option Str) (hends : EndsOfNames domainStr) :
    (forall strict, Equivalence fun a b => domainsAligned domainStr a b strict = true) ∧
    (forall a b strict, eqIgnoreCase a b = true -> domainsAligned domainStr a b strict = true) ∧
    (forall a b, domainsAligned domainStr a b true = true ->
      domainsAligned domainStr a b false = true) ∧
    (forall a b, domainsAligned domainStr a b false = true -> eqIgnoreCase a b = false ->
      exists registrable, domainStr (normalize a) = some registrable ∧
        domainStr (normalize b) = some registrable) ∧
    forall resolver headerDomain envelopeDomain spfResult dkimVerdict,
      (evaluate domainStr resolver headerDomain envelopeDomain spfResult dkimVerdict =
          DmarcVerdict.pass <->
        exists record isSubdomain,
          Discovered domainStr resolver headerDomain record isSubdomain ∧
            Authenticated domainStr headerDomain envelopeDomain spfResult dkimVerdict record) ∧
      forall disposition,
        evaluate domainStr resolver headerDomain envelopeDomain spfResult dkimVerdict =
            DmarcVerdict.fail disposition ->
          exists record,
            ¬ Authenticated domainStr headerDomain envelopeDomain spfResult dkimVerdict record ∧
            ((RecordAt (resolver 0) headerDomain record ∧
                disposition = toDisposition record.policy) ∨
              (NothingAt (resolver 0) headerDomain ∧
                RecordAt (resolver 1) (organizationalDomain domainStr headerDomain) record ∧
                disposition = toDisposition (record.subdomainPolicy.getD record.policy))) := by
  refine ⟨domainsAligned_equivalence, fun _ _ strict h => domainsAligned_of_eq h strict,
    fun _ _ => relaxed_of_strict, fun _ _ => registrable_of_aligned hends, ?_⟩
  intro resolver headerDomain envelopeDomain spfResult dkimVerdict
  exact ⟨evaluate_eq_pass, fun _ => evaluate_eq_fail⟩

def sampleList (name : Str) : Option Str :=
  if name = "mail.example.com".toList ∨ name = "example.com".toList then
    some "example.com".toList
  else
    none

theorem sampleList_ends : EndsOfNames sampleList := by
  have hends : "example.com".toList.isSuffixOf (lower "mail.example.com".toList) = true ∧
      "example.com".toList.isSuffixOf (lower "example.com".toList) = true := by
    decide +kernel
  intro domain registrable h
  rw [sampleList] at h
  split at h
  · rename_i hname
    cases h
    rcases hname with rfl | rfl
    · exact hends.1
    · exact hends.2
  · cases h

def sampleAnswers : DmarcTxtResolver := fun _ name =>
  if name = "_dmarc.example.com".toList then ["v=DMARC1; p=none; sp=reject".toList] else []

def sampleRecord : DmarcRecord :=
  ⟨DmarcPolicy.none, some DmarcPolicy.reject, false, false, 100⟩

theorem subdomain_passes :
    evaluate sampleList sampleAnswers "mail.example.com".toList "Example.com".toList
      (some SpfResult.pass) DkimVerdict.noSignature = DmarcVerdict.pass := by
  have hruns : (sampleAnswers 0 ("_dmarc.".toList ++ normalize "mail.example.com".toList)).filter
        isDmarc1Record = [] ∧
      eqIgnoreCase "mail.example.com".toList
        (organizationalDomain sampleList "mail.example.com".toList) = false ∧
      (sampleAnswers 1 ("_dmarc.".toList ++
          normalize (organizationalDomain sampleList "mail.example.com".toList))).filter
        isDmarc1Record = ["v=DMARC1; p=none; sp=reject".toList] ∧
      parseRecord "v=DMARC1; p=none; sp=reject".toList = some sampleRecord ∧
      domainsAligned sampleList "Example.com".toList "mail.example.com".toList false = true := by
    decide +kernel
  rcases hruns with ⟨hnothing, hother, hfound, hrecord, haligned⟩
  apply ((dmarc_verdict sampleList sampleList_ends).2.2.2.2 _ _ _ _ _).1.mpr
  exact ⟨sampleRecord, true, Discovered.organizational hnothing hother ⟨_, hfound, hrecord⟩,
    Or.inl ⟨rfl, List.cons_ne_nil _ _, haligned⟩⟩

/-- An empty envelope domain does not count, not even for an empty domain of the sender. -/
theorem empty_domain_fails :
    RecordAt (fun _ => ["v=DMARC1; p=reject".toList]) []
        ⟨DmarcPolicy.reject, none, false, false, 100⟩ ∧
      domainsAligned sampleList [] [] false = true ∧
      evaluate sampleList (fun _ _ => ["v=DMARC1; p=reject".toList]) [] []
          (some SpfResult.pass) DkimVerdict.noSignature =
        DmarcVerdict.fail DmarcDisposition.reject := by
  have hruns : ["v=DMARC1; p=reject".toList].filter isDmarc1Record =
        ["v=DMARC1; p=reject".toList] ∧
      parseRecord "v=DMARC1; p=reject".toList =
        some ⟨DmarcPolicy.reject, none, false, false, 100⟩ ∧
      domainsAligned sampleList [] [] false = true ∧
      evaluate sampleList (fun _ _ => ["v=DMARC1; p=reject".toList]) [] []
          (some SpfResult.pass) DkimVerdict.noSignature =
        DmarcVerdict.fail DmarcDisposition.reject := by
    decide +kernel
  exact ⟨⟨_, hruns.1, hruns.2.1⟩, hruns.2.2⟩

end Dmarc
end Gateway
end Ephor
