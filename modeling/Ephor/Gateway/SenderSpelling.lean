import Ephor.Gateway.ColdSender
import Ephor.Gateway.SpfOutcomes

/-!
# The spellings of a sender

`MAIL FROM:` hands the text behind it on as it is, with the angle brackets and the ESMTP
parameters, to the cold-sender gate and to SPF.  The gate compares it with whole addresses, and
SPF looks for a domain behind its last `@`.
-/

namespace Ephor
namespace Gateway

open Foundation
open Foundation.Text

/-!
# Spellings
-/

structure ReversePath where
  localPart : Str
  domain : Str
  domain_ne : domain ≠ []
  at_not_mem : '@' ∉ domain
  starts : forall c, c ∈ localPart.head? -> c ≠ '<' ∧ isWhiteSpace c = false
  ends : forall c, c ∈ domain.getLast? -> c ≠ '>' ∧ isWhiteSpace c = false

/-- A parameter such as `SIZE=1000`. -/
structure EsmtpParam where
  text : Str
  text_ne : text ≠ []
  visible : forall c, c ∈ text -> isWhiteSpace c = false

def ReversePath.text (a : ReversePath) : Str :=
  a.localPart ++ '@' :: a.domain

def ReversePath.bracketed (a : ReversePath) : Str :=
  '<' :: a.text ++ ['>']

def paramsText (ps : List EsmtpParam) : Str :=
  ps.flatMap fun p => ' ' :: p.text

def mailLine (arg : Str) : Str :=
  "MAIL".toList ++ ' ' :: ("FROM:".toList ++ arg)

/-!
# What the checks of a sender see
-/

/-- The decision of the gate and, when it accepts, what SPF makes of the sender. -/
structure SenderView where
  decision : AbuseDecision
  spf : Option SpfOutcome
deriving DecidableEq

namespace MxSession

variable (gw : InboundGateway) (answers : Answers) (s : MxSession)

def viewOf (addr : Str) : SenderView where
  decision := answers.check s.peer.text addr
  spf :=
    if answers.check s.peer.text addr = AbuseDecision.accept then
      some (gw.evaluateSpf answers s.peer addr s.helo)
    else
      none

def senderView (line : Str) : Option SenderView :=
  (mailAddress (splitCommand line).2).map (s.viewOf gw answers)

end MxSession

/-- The reply to `MAIL FROM:` that the checks lead to. -/
def InboundGateway.senderReply (gw : InboundGateway) (view : SenderView) : SmtpReply :=
  match view.decision with
  | AbuseDecision.reject code reason => ⟨code, reason⟩
  | AbuseDecision.accept =>
      match gw.spfGate (view.spf.getD SpfOutcome.unevaluated) with
      | Except.error reply => reply
      | Except.ok _ => ⟨250, "2.1.0 sender ok"⟩

def Answers.ofGate (answers : Answers) (gate : ColdSenderGate) (now : Nat) (st : GateState)
    (resolver : Spf.SpfResolver) : Answers :=
  { answers with
    check := fun peerIp mailFrom => (gate.check now st peerIp mailFrom).1
    checkHost := Spf.checkHost resolver }

/-!
# When two spellings are treated alike
-/

def PrefixListed (prefixes : List Str) (peerIp : Str) : Prop :=
  exists p, p ∈ prefixes ∧ p <+: peerIp

namespace ColdSenderGate

variable (gate : ColdSenderGate) (now : Nat) (st : GateState) (peerIp : Str)

/-- The address has used up its rate limit. -/
def Full : Prop :=
  gate.rateLimit <= UInt32.ofNat (gate.hits now st peerIp).length

/-- The text is that of a known sender, or its greylist entry is old enough. -/
def Passes (mailFrom : Str) : Prop :=
  lower mailFrom ∈ gate.knownSenders ∨
    exists ts, st.greylist.lookup (peerIp, mailFrom) = some ts ∧
      gate.greylistMinRetryMs <= now - ts ∧ now - ts <= gate.greylistTtlMs

/-- The greylist entry of the text is too young. -/
def Waits (mailFrom : Str) : Prop :=
  exists ts, st.greylist.lookup (peerIp, mailFrom) = some ts ∧
    now - ts < gate.greylistMinRetryMs ∧ now - ts <= gate.greylistTtlMs

/--
Two texts are treated alike: both or neither of them are on each list that the gate comes to, and
where the greylist decides their entries are in the same state.
-/
def Alike (first second : Str) : Prop :=
  PrefixListed gate.blockedIpPrefixes peerIp ∨
    ((lower first ∈ gate.blockedSenders <-> lower second ∈ gate.blockedSenders) ∧
      (lower first ∈ gate.blockedSenders ∨ PrefixListed gate.knownIpPrefixes peerIp ∨
        (gate.Full now st peerIp ∧
          (lower first ∈ gate.knownSenders <-> lower second ∈ gate.knownSenders)) ∨
        (¬ gate.Full now st peerIp ∧
          (gate.Passes now st peerIp first <-> gate.Passes now st peerIp second) ∧
          (gate.Passes now st peerIp first ∨
            (gate.Waits now st peerIp first <-> gate.Waits now st peerIp second)))))

def Admits (mailFrom : Str) : Prop :=
  ¬ PrefixListed gate.blockedIpPrefixes peerIp ∧ lower mailFrom ∉ gate.blockedSenders ∧
    (PrefixListed gate.knownIpPrefixes peerIp ∨ lower mailFrom ∈ gate.knownSenders ∨
      (¬ gate.Full now st peerIp ∧ gate.Passes now st peerIp mailFrom))

end ColdSenderGate

/--
The parameters do not mislead SPF: it is not evaluated, there are none, or they end in the domain
again (or in a bare `@`, for a client that said it is the domain), up to closing brackets.
-/
def SpfAlike (gw : InboundGateway) (s : MxSession) (domain : Str) (ps : List EsmtpParam) : Prop :=
  gw.spfResolver = false ∨ s.peer.addr = none ∨ ps = [] ∨
    '@' :: domain <:+ (paramsText ps).rdropWhile (· == '>') ∨
    (['@'] <:+ (paramsText ps).rdropWhile (· == '>') ∧ s.helo = some domain)

/-!
# The gate
-/

variable {mailFrom arg : Str} {ps : List EsmtpParam}

namespace ColdSenderGate

variable {gate : ColdSenderGate} {now : Nat} {st : GateState} {peerIp : Str}

theorem any_isPrefixOf {prefixes : List Str} :
    (prefixes.any fun p => p.isPrefixOf peerIp) = true <-> PrefixListed prefixes peerIp := by
  rw [List.any_eq_true]
  constructor
  · intro h
    rcases h with ⟨p, hp, hstarts⟩
    exact ⟨p, hp, List.isPrefixOf_iff_prefix.mp hstarts⟩
  · intro h
    rcases h with ⟨p, hp, hstarts⟩
    exact ⟨p, hp, List.isPrefixOf_iff_prefix.mpr hstarts⟩

theorem isBlocked_iff :
    gate.isBlocked peerIp mailFrom = true <->
      PrefixListed gate.blockedIpPrefixes peerIp ∨ lower mailFrom ∈ gate.blockedSenders := by
  rw [isBlocked, Bool.or_eq_true, any_isPrefixOf, List.contains_iff_mem]

theorem isKnown_iff :
    gate.isKnown peerIp mailFrom = true <->
      PrefixListed gate.knownIpPrefixes peerIp ∨ lower mailFrom ∈ gate.knownSenders := by
  rw [isKnown, Bool.or_eq_true, any_isPrefixOf, List.contains_iff_mem]

theorem not_isBlocked_iff :
    gate.isBlocked peerIp mailFrom = false <->
      ¬ (PrefixListed gate.blockedIpPrefixes peerIp ∨ lower mailFrom ∈ gate.blockedSenders) := by
  rw [<- isBlocked_iff, Bool.not_eq_true]

theorem not_isKnown_iff :
    gate.isKnown peerIp mailFrom = false <->
      ¬ (PrefixListed gate.knownIpPrefixes peerIp ∨ lower mailFrom ∈ gate.knownSenders) := by
  rw [<- isKnown_iff, Bool.not_eq_true]

theorem passes_of_entry {ts : Nat} (hknown : lower mailFrom ∉ gate.knownSenders)
    (hts : st.greylist.lookup (peerIp, mailFrom) = some ts)
    (hfresh : now - ts <= gate.greylistTtlMs) :
    gate.Passes now st peerIp mailFrom <-> gate.greylistMinRetryMs <= now - ts := by
  constructor
  · intro h
    rcases h with hlisted | ⟨ts', hts', hlate, _⟩
    · exact absurd hlisted hknown
    · rw [hts] at hts'
      cases hts'
      exact hlate
  · intro h
    exact Or.inr ⟨ts, hts, h, hfresh⟩

open Classical in
theorem check_fst (gate : ColdSenderGate) (now : Nat) (st : GateState) (peerIp mailFrom : Str) :
    (gate.check now st peerIp mailFrom).1 =
      if PrefixListed gate.blockedIpPrefixes peerIp ∨ lower mailFrom ∈ gate.blockedSenders then
        blocked
      else if PrefixListed gate.knownIpPrefixes peerIp ∨ lower mailFrom ∈ gate.knownSenders then
        AbuseDecision.accept
      else if gate.Full now st peerIp then rateLimited
      else if gate.Passes now st peerIp mailFrom then AbuseDecision.accept
      else if gate.Waits now st peerIp mailFrom then retriedTooSoon
      else greylisted := by
  have houtcome := gate.check_outcome now st peerIp mailFrom
  generalize (gate.check now st peerIp mailFrom).1 = answer at houtcome
  generalize (gate.check now st peerIp mailFrom).2 = st' at houtcome
  cases houtcome with
  | blocked hblocked => rw [if_pos (isBlocked_iff.mp hblocked)]
  | known hblocked hknown =>
      rw [if_neg (not_isBlocked_iff.mp hblocked), if_pos (isKnown_iff.mp hknown)]
  | limited hblocked hknown hfull =>
      have hfull : gate.Full now st peerIp := hfull
      rw [if_neg (not_isBlocked_iff.mp hblocked), if_neg (not_isKnown_iff.mp hknown),
        if_pos hfull]
  | deferred hblocked hknown hroom hcold =>
      have hroom : ¬ gate.Full now st peerIp := hroom
      have hlisted := not_isKnown_iff.mp hknown
      have hpasses : ¬ gate.Passes now st peerIp mailFrom := by
        intro h
        rcases h with hknown' | ⟨ts, hts, _, hfresh⟩
        · exact hlisted (Or.inr hknown')
        · exact absurd (hcold ts hts) (Nat.not_lt.mpr hfresh)
      have hwaits : ¬ gate.Waits now st peerIp mailFrom := by
        intro h
        rcases h with ⟨ts, hts, _, hfresh⟩
        exact absurd (hcold ts hts) (Nat.not_lt.mpr hfresh)
      rw [if_neg (not_isBlocked_iff.mp hblocked), if_neg hlisted, if_neg hroom, if_neg hpasses,
        if_neg hwaits]
  | tooSoon ts hblocked hknown hroom hts hfresh hsoon =>
      have hroom : ¬ gate.Full now st peerIp := hroom
      have hlisted := not_isKnown_iff.mp hknown
      have hpasses := passes_of_entry (fun h => hlisted (Or.inr h)) hts hfresh
      rw [if_neg (not_isBlocked_iff.mp hblocked), if_neg hlisted, if_neg hroom,
        if_neg (fun h => absurd hsoon (Nat.not_lt.mpr (hpasses.mp h))),
        if_pos ⟨ts, hts, hsoon, hfresh⟩]
  | accepted ts hblocked hknown hroom hts hfresh hlate =>
      have hroom : ¬ gate.Full now st peerIp := hroom
      have hlisted := not_isKnown_iff.mp hknown
      have hpasses := passes_of_entry (fun h => hlisted (Or.inr h)) hts hfresh
      rw [if_neg (not_isBlocked_iff.mp hblocked), if_neg hlisted, if_neg hroom,
        if_pos (hpasses.mpr hlate)]

open Classical in
theorem check_fst_of_room
    (hblocked : ¬ (PrefixListed gate.blockedIpPrefixes peerIp ∨
      lower mailFrom ∈ gate.blockedSenders))
    (hknown : ¬ PrefixListed gate.knownIpPrefixes peerIp) (hroom : ¬ gate.Full now st peerIp) :
    (gate.check now st peerIp mailFrom).1 =
      if gate.Passes now st peerIp mailFrom then AbuseDecision.accept
      else if gate.Waits now st peerIp mailFrom then retriedTooSoon
      else greylisted := by
  rw [check_fst, if_neg hblocked, if_neg hroom]
  split
  · rename_i hlisted
    rcases hlisted with hip | hsender
    · exact absurd hip hknown
    · rw [if_pos (show gate.Passes now st peerIp mailFrom from Or.inl hsender)]
  · rfl

theorem check_fst_of_full
    (hblocked : ¬ (PrefixListed gate.blockedIpPrefixes peerIp ∨
      lower mailFrom ∈ gate.blockedSenders))
    (hknown : ¬ PrefixListed gate.knownIpPrefixes peerIp) (hfull : gate.Full now st peerIp) :
    (gate.check now st peerIp mailFrom).1 =
      if lower mailFrom ∈ gate.knownSenders then AbuseDecision.accept else rateLimited := by
  rw [check_fst, if_neg hblocked, if_pos hfull]
  by_cases hsender : lower mailFrom ∈ gate.knownSenders
  · rw [if_pos hsender, if_pos (Or.inr hsender)]
  · rw [if_neg hsender, if_neg (not_or.mpr ⟨hknown, hsender⟩)]

theorem check_eq_blocked (mailFrom : Str) :
    (gate.check now st peerIp mailFrom).1 = blocked <->
      PrefixListed gate.blockedIpPrefixes peerIp ∨ lower mailFrom ∈ gate.blockedSenders := by
  rw [check_fst]
  split
  · rename_i hblocked
    exact iff_of_true rfl hblocked
  · rename_i hblocked
    apply iff_of_false _ hblocked
    split_ifs
    all_goals decide

theorem check_eq_accept (mailFrom : Str) :
    (gate.check now st peerIp mailFrom).1 = AbuseDecision.accept <->
      gate.Admits now st peerIp mailFrom := by
  rw [Admits, <- and_assoc, <- not_or, <- or_assoc]
  by_cases hblocked : PrefixListed gate.blockedIpPrefixes peerIp ∨
      lower mailFrom ∈ gate.blockedSenders
  · rw [(check_eq_blocked mailFrom).mpr hblocked]
    exact iff_of_false (by decide) fun h => h.1 hblocked
  rw [check_fst, if_neg hblocked]
  by_cases hknown : PrefixListed gate.knownIpPrefixes peerIp ∨ lower mailFrom ∈ gate.knownSenders
  · rw [if_pos hknown]
    exact iff_of_true rfl ⟨hblocked, Or.inl hknown⟩
  rw [if_neg hknown]
  by_cases hfull : gate.Full now st peerIp
  · rw [if_pos hfull]
    exact iff_of_false (by decide) fun h => (h.2.resolve_left hknown).1 hfull
  rw [if_neg hfull]
  by_cases hpasses : gate.Passes now st peerIp mailFrom
  · rw [if_pos hpasses]
    exact iff_of_true rfl ⟨hblocked, Or.inr ⟨hfull, hpasses⟩⟩
  · rw [if_neg hpasses]
    apply iff_of_false _ fun h => hpasses (h.2.resolve_left hknown).2
    split_ifs
    all_goals decide

theorem check_eq_iff (first second : Str) :
    (gate.check now st peerIp first).1 = (gate.check now st peerIp second).1 <->
      gate.Alike now st peerIp first second := by
  rw [Alike]
  by_cases hip : PrefixListed gate.blockedIpPrefixes peerIp
  · rw [(check_eq_blocked first).mpr (Or.inl hip), (check_eq_blocked second).mpr (Or.inl hip)]
    exact iff_of_true rfl (Or.inl hip)
  rw [or_iff_right hip]
  by_cases hsame : lower first ∈ gate.blockedSenders <-> lower second ∈ gate.blockedSenders
  · rw [and_iff_right hsame]
    by_cases hsender : lower first ∈ gate.blockedSenders
    · rw [(check_eq_blocked first).mpr (Or.inr hsender),
        (check_eq_blocked second).mpr (Or.inr (hsame.mp hsender))]
      exact iff_of_true rfl (Or.inl hsender)
    have hfirst := not_or.mpr ⟨hip, hsender⟩
    have hsecond := not_or.mpr ⟨hip, fun h => hsender (hsame.mpr h)⟩
    rw [or_iff_right hsender]
    by_cases hknown : PrefixListed gate.knownIpPrefixes peerIp
    · rw [check_fst, check_fst, if_neg hfirst, if_neg hsecond, if_pos (Or.inl hknown),
        if_pos (Or.inl hknown)]
      exact iff_of_true rfl (Or.inl hknown)
    rw [or_iff_right hknown]
    by_cases hfull : gate.Full now st peerIp
    · rw [check_fst_of_full hfirst hknown hfull, check_fst_of_full hsecond hknown hfull,
        or_iff_left (fun h => h.1 hfull), and_iff_right hfull]
      split_ifs
      all_goals simp [*, rateLimited]
    · rw [check_fst_of_room hfirst hknown hfull, check_fst_of_room hsecond hknown hfull,
        or_iff_right (fun h => hfull h.1), and_iff_right hfull]
      split_ifs
      all_goals simp [*, retriedTooSoon, greylisted]
  · apply iff_of_false _ fun h => hsame h.1
    intro h
    apply hsame
    have hblocked : (gate.check now st peerIp first).1 = blocked <->
        (gate.check now st peerIp second).1 = blocked := by rw [h]
    rw [check_eq_blocked, check_eq_blocked, or_iff_right hip, or_iff_right hip] at hblocked
    exact hblocked

end ColdSenderGate

/-!
# The domain
-/

theorem filter_domain {d : Str} (h : d ≠ []) : (some d).filter (fun d => d != []) = some d :=
  Option.filter_some_pos (bne_iff_ne.mpr h)

namespace ReversePath

variable (a : ReversePath)

theorem head_text (rest : Str) {c : Char} (h : c ∈ (a.text ++ rest).head?) :
    c ≠ '<' ∧ isWhiteSpace c = false := by
  rw [text] at h
  cases hlocal : a.localPart with
  | nil =>
      rw [hlocal] at h
      cases h
      decide
  | cons x front =>
      rw [hlocal] at h
      apply a.starts c
      rw [hlocal]
      exact h

theorem getLast_text {c : Char} (h : c ∈ a.text.getLast?) : c ≠ '>' ∧ isWhiteSpace c = false := by
  apply a.ends c
  rw [text, List.getLast?_append_cons, List.getLast?_cons_of_ne_nil a.domain_ne] at h
  exact h

theorem at_mem_text : '@' ∈ a.text :=
  List.mem_append_right _ List.mem_cons_self

theorem rsplitOnce_text (front : Str) :
    rsplitOnce '@' (front ++ a.text) = some (front ++ a.localPart, a.domain) := by
  rw [text, <- List.append_assoc, rsplitOnce_cons _ a.at_not_mem]

theorem trim_text : trim a.text = a.text := by
  apply trim_of_ends
  · intro c hc
    rw [<- List.append_nil a.text] at hc
    exact (a.head_text [] hc).2
  · intro c hc
    exact (a.getLast_text hc).2

theorem domainOf_text : domainOf a.text = some a.domain := by
  have hhead : forall c, c ∈ a.text.head? -> (c == '<') = false := by
    intro c hc
    rw [<- List.append_nil a.text] at hc
    exact beq_false_of_ne (a.head_text [] hc).1
  have hlast : forall c, c ∈ a.text.getLast? -> (c == '>') = false := by
    intro c hc
    exact beq_false_of_ne (a.getLast_text hc).1
  rw [domainOf, a.trim_text, trimBrackets, dropWhile_of_head hhead, rdropWhile_of_last hlast]
  rw [<- List.nil_append a.text, a.rsplitOnce_text]
  exact filter_domain a.domain_ne

theorem dropWhile_bracketed (rest : Str) :
    (a.bracketed ++ rest).dropWhile (· == '<') = a.text ++ '>' :: rest := by
  have hhead : forall c, c ∈ (a.text ++ '>' :: rest).head? -> (c == '<') = false := by
    intro c hc
    exact beq_false_of_ne (a.head_text _ hc).1
  rw [bracketed, List.cons_append, List.cons_append, List.dropWhile_cons_of_pos rfl,
    List.append_assoc]
  exact dropWhile_of_head hhead

theorem trim_bracketed (rest : Str) (h : forall c, c ∈ rest.getLast? -> isWhiteSpace c = false) :
    trim (a.bracketed ++ rest) = a.bracketed ++ rest := by
  apply trim_of_ends
  · intro c hc
    cases hc
    decide
  · intro c hc
    rcases mem_getLast?_append hc with hrest | hbracket
    · exact h c hrest
    · rw [bracketed, List.getLast?_concat] at hbracket
      cases hbracket
      decide

theorem domainOf_bracketed : domainOf a.bracketed = some a.domain := by
  have hlast : forall c, c ∈ a.text.getLast? -> (c == '>') = false := by
    intro c hc
    exact beq_false_of_ne (a.getLast_text hc).1
  have htrim := a.trim_bracketed [] fun c hc => by cases hc
  have hdrop := a.dropWhile_bracketed []
  rw [List.append_nil] at htrim hdrop
  rw [domainOf, htrim, trimBrackets, hdrop, List.rdropWhile_concat_pos _ _ _ rfl,
    rdropWhile_of_last hlast, <- List.nil_append a.text, a.rsplitOnce_text]
  exact filter_domain a.domain_ne

end ReversePath

theorem paramsText_ne (hps : ps ≠ []) : (paramsText ps).rdropWhile (· == '>') ≠ [] := by
  intro h
  cases ps with
  | nil => exact hps rfl
  | cons p ps =>
      have hspace := List.rdropWhile_eq_nil_iff.mp h ' ' (by
        rw [paramsText, List.flatMap_cons]
        exact List.mem_cons_self)
      exact absurd hspace (by decide)

theorem getLast_paramsText {c : Char} (h : c ∈ (paramsText ps).getLast?) :
    isWhiteSpace c = false := by
  induction ps using List.reverseRecOn with
  | nil => cases h
  | append_singleton ps p _ =>
      rw [paramsText, List.flatMap_append, List.flatMap_singleton, List.getLast?_append_cons,
        List.getLast?_cons_of_ne_nil p.text_ne] at h
      exact p.visible c (List.mem_of_getLast? h)

theorem spfIdentity_domain {text : Str} (htrim : trim text = text) (hat : '@' ∈ text)
    (helo : Option Str) : (spfIdentity text helo).2 = (domainOf text).getD (helo.getD []) := by
  have hnull : ¬ (text = [] ∨ text = "<>".toList) := by
    intro h
    rcases h with h | h
    · rw [h] at hat
      cases hat
    · rw [h] at hat
      exact absurd hat (by decide)
  rw [spfIdentity, htrim, if_neg hnull]
  cases domainOf text <;> rfl

theorem ReversePath.domainOf_params (a : ReversePath) (hps : ps ≠ []) (fallback : Str) :
    (domainOf (a.bracketed ++ paramsText ps)).getD fallback = a.domain <->
      '@' :: a.domain <:+ (paramsText ps).rdropWhile (· == '>') ∨
        (['@'] <:+ (paramsText ps).rdropWhile (· == '>') ∧ fallback = a.domain) := by
  have hstays : ('>' :: paramsText ps).rdropWhile (· == '>') =
      '>' :: (paramsText ps).rdropWhile (· == '>') :=
    rdropWhile_append ['>'] (paramsText_ne hps)
  have hne : ('>' :: paramsText ps).rdropWhile (· == '>') ≠ [] := by
    rw [hstays]
    exact List.cons_ne_nil _ _
  rw [domainOf, a.trim_bracketed _ fun _ => getLast_paramsText, trimBrackets,
    a.dropWhile_bracketed, rdropWhile_append _ hne, hstays]
  generalize (paramsText ps).rdropWhile (· == '>') = q
  cases hsplit : rsplitOnce '@' q with
  | none =>
      have hnot := rsplitOnce_eq_none.mp hsplit
      have htail : '@' ∉ '>' :: q := by
        intro h
        rcases List.mem_cons.mp h with h | h
        · exact absurd h (by decide)
        · exact hnot h
      have hsome : (a.domain ++ '>' :: q) ≠ [] :=
        List.append_ne_nil_of_left_ne_nil a.domain_ne _
      rw [rsplitOnce_append htail, <- List.nil_append a.text, a.rsplitOnce_text, Option.map_some,
        Option.map_some, filter_domain hsome]
      apply iff_of_false
      · intro h
        have hlength := congrArg List.length h
        rw [Option.getD_some, List.length_append, List.length_cons] at hlength
        omega
      · intro h
        rcases h with h | ⟨h, _⟩
        · exact hnot (h.subset List.mem_cons_self)
        · exact hnot (h.subset List.mem_cons_self)
  | some parts =>
      cases parts with
      | mk before after =>
          have hafter := not_mem_of_rsplitOnce hsplit
          have hwhole : a.text ++ '>' :: q = (a.text ++ '>' :: before) ++ '@' :: after := by
            rw [rsplitOnce_eq_some hsplit, List.append_assoc]
            rfl
          rw [suffix_iff_of_rsplitOnce hsplit a.at_not_mem,
            suffix_iff_of_rsplitOnce hsplit List.not_mem_nil, hwhole, rsplitOnce_cons _ hafter,
            Option.map_some]
          by_cases hempty : after = []
          · rw [hempty, Option.filter_some_neg rfl, Option.getD_none, or_iff_right a.domain_ne.symm,
              and_iff_right rfl]
          · rw [filter_domain hempty, Option.getD_some,
              or_iff_left (fun h => hempty h.1)]

/-!
# SPF
-/

theorem checkHost_sender (resolver : Spf.SpfResolver) (ip : IpAddr) (sender other : Str)
    (left : Nat) {depth : Nat} (hleft : Spf.maxChainDepth + 1 - depth = left)
    (ev : Spf.Evaluator) (domain : Str) :
    Spf.Evaluator.checkHost resolver ip sender depth ev domain =
      Spf.Evaluator.checkHost resolver ip other depth ev domain := by
  induction left generalizing depth ev domain with
  | zero =>
      have hdeep : depth > Spf.maxChainDepth := by omega
      rw [Spf.Evaluator.checkHost, Spf.Evaluator.checkHost, if_pos hdeep, if_pos hdeep]
  | succ left ih =>
      have hrest : (fun ev target =>
            Spf.Evaluator.checkHost resolver ip sender (depth + 1) ev target) =
          fun ev target => Spf.Evaluator.checkHost resolver ip other (depth + 1) ev target := by
        funext ev target
        exact ih (by omega) ev target
      rw [Spf.Evaluator.checkHost, Spf.Evaluator.checkHost, hrest]

theorem spfEvaluate_eq_iff {answers : Answers} {ip : IpAddr}
    (hsender : forall domain sender other,
      answers.checkHost ip domain sender = answers.checkHost ip domain other)
    (text other : Str) (helo : Option Str) :
    spfEvaluate answers ip text helo = spfEvaluate answers ip other helo <->
      (spfIdentity text helo).2 = (spfIdentity other helo).2 := by
  have hdomain : forall text, (spfEvaluate answers ip text helo).domain =
      (spfIdentity text helo).2 := by
    intro text
    rw [spfEvaluate]
    dsimp only
    split
    · rfl
    · rfl
  constructor
  · intro h
    rw [<- hdomain, <- hdomain, h]
  · intro h
    rw [spfEvaluate, spfEvaluate]
    dsimp only
    rw [h, hsender _ (spfIdentity text helo).1 (spfIdentity other helo).1]

theorem evaluateSpf_eq_iff {gw : InboundGateway} {answers : Answers} {peer : Peer}
    (hsender : forall ip domain sender other,
      answers.checkHost ip domain sender = answers.checkHost ip domain other)
    (text other : Str) (helo : Option Str) :
    gw.evaluateSpf answers peer text helo = gw.evaluateSpf answers peer other helo <->
      gw.spfResolver = false ∨ peer.addr = none ∨
        (spfIdentity text helo).2 = (spfIdentity other helo).2 := by
  rw [InboundGateway.evaluateSpf, InboundGateway.evaluateSpf]
  cases hresolver : gw.spfResolver with
  | false => exact iff_of_true rfl (Or.inl rfl)
  | true =>
      rw [or_iff_right (by decide)]
      cases haddr : peer.addr with
      | none => exact iff_of_true rfl (Or.inl rfl)
      | some ip =>
          rw [or_iff_right (Option.some_ne_none ip)]
          exact spfEvaluate_eq_iff (hsender ip) text other helo

/-!
# The command line
-/

theorem splitCommand_mailLine (hlast : forall c, c ∈ arg.getLast? -> isWhiteSpace c = false) :
    splitCommand (mailLine arg) = ("MAIL".toList, "FROM:".toList ++ arg) := by
  have htrim : trim ("FROM:".toList ++ arg) = "FROM:".toList ++ arg := by
    apply trim_of_ends
    · intro c hc
      cases hc
      decide
    · intro c hc
      rcases mem_getLast?_append hc with harg | hcolon
      · exact hlast c harg
      · cases hcolon
        decide
  rw [splitCommand, mailLine, splitOnce_piece (by decide)]
  dsimp only
  rw [htrim]
  rfl

theorem mailAddress_append (arg : Str) : mailAddress ("FROM:".toList ++ arg) = some (trim arg) := by
  rw [mailAddress, dropPrefix?_append]
  rfl

namespace MxSession

variable {gw : InboundGateway} {answers : Answers} {s : MxSession}

theorem senderView_mailLine (htrim : trim arg = arg)
    (hlast : forall c, c ∈ arg.getLast? -> isWhiteSpace c = false) :
    s.senderView gw answers (mailLine arg) = some (s.viewOf gw answers arg) := by
  rw [senderView, splitCommand_mailLine hlast, mailAddress_append, htrim]
  rfl

theorem feedLine_mailLine (hphase : s.phase = Phase.command) (htrim : trim arg = arg)
    (hlast : forall c, c ∈ arg.getLast? -> isWhiteSpace c = false) :
    (s.feedLine gw answers (mailLine arg)).reply = gw.senderReply (s.viewOf gw answers arg) := by
  rw [feedLine, feedLineBytes, hphase]
  dsimp only
  rw [fromUtf8Lossy_utf8, feedCommand, splitCommand_mailLine hlast]
  change (s.cmdMail gw answers ("FROM:".toList ++ arg)).reply = _
  rw [cmdMail, mailAddress_append, htrim]
  dsimp only
  rw [InboundGateway.senderReply, viewOf]
  dsimp only
  cases answers.check s.peer.text arg with
  | reject code reason => rfl
  | accept =>
      dsimp only
      rw [if_pos rfl, Option.getD_some]
      cases gw.spfGate (gw.evaluateSpf answers s.peer arg s.helo) with
      | error reply | ok _ => rfl

theorem viewOf_eq_iff {text other : Str} :
    s.viewOf gw answers text = s.viewOf gw answers other <->
      answers.check s.peer.text text = answers.check s.peer.text other ∧
        (answers.check s.peer.text text = AbuseDecision.accept ->
          gw.evaluateSpf answers s.peer text s.helo =
            gw.evaluateSpf answers s.peer other s.helo) := by
  rw [viewOf, viewOf, SenderView.mk.injEq]
  apply and_congr_right
  intro hcheck
  rw [<- hcheck]
  by_cases haccept : answers.check s.peer.text text = AbuseDecision.accept
  · rw [if_pos haccept, if_pos haccept, Option.some_inj]
    exact (imp_iff_right haccept).symm
  · rw [if_neg haccept, if_neg haccept]
    exact iff_of_true rfl fun h => absurd h haccept

end MxSession

/-!
# The spellings together
-/

def SpellingsAlike (gw : InboundGateway) (answers : Answers) (s : MxSession) (a : ReversePath)
    (ps : List EsmtpParam) : Prop :=
  s.senderView gw answers (mailLine a.bracketed) =
      s.senderView gw answers (mailLine (a.bracketed ++ paramsText ps)) ∧
    s.senderView gw answers (mailLine a.bracketed) =
      s.senderView gw answers (mailLine a.text)

def spellings (a : ReversePath) (ps : List EsmtpParam) : List Str :=
  [a.bracketed, a.bracketed ++ paramsText ps, a.text]

theorem spellings_trim {a : ReversePath} (h : arg ∈ spellings a ps) :
    trim arg = arg ∧ forall c, c ∈ arg.getLast? -> isWhiteSpace c = false := by
  have hbracketed : forall rest : Str, (forall c, c ∈ rest.getLast? -> isWhiteSpace c = false) ->
      forall c, c ∈ (a.bracketed ++ rest).getLast? -> isWhiteSpace c = false := by
    intro rest hrest c hc
    rcases mem_getLast?_append hc with hc | hc
    · exact hrest c hc
    · rw [ReversePath.bracketed, List.getLast?_concat] at hc
      cases hc
      decide
  have hnil : forall c, c ∈ ([] : Str).getLast? -> isWhiteSpace c = false :=
    fun c hc => by cases hc
  rw [spellings] at h
  rcases List.mem_cons.mp h with h | h
  · rw [h, <- List.append_nil a.bracketed]
    exact ⟨a.trim_bracketed [] hnil, hbracketed [] hnil⟩
  rcases List.mem_cons.mp h with h | h
  · rw [h]
    exact ⟨a.trim_bracketed _ fun _ => getLast_paramsText,
      hbracketed _ fun _ => getLast_paramsText⟩
  · rw [List.mem_singleton.mp h]
    exact ⟨a.trim_text, fun c hc => (a.getLast_text hc).2⟩

theorem ReversePath.spfIdentity_bracketed (a : ReversePath) (helo : Option Str) :
    (spfIdentity a.bracketed helo).2 = a.domain := by
  have htrim := (spellings_trim (show a.bracketed ∈ spellings a [] from List.mem_cons_self)).1
  have hat : '@' ∈ a.bracketed :=
    List.mem_cons_of_mem _ (List.mem_append_left _ a.at_mem_text)
  rw [spfIdentity_domain htrim hat, a.domainOf_bracketed]
  rfl

theorem ReversePath.spfIdentity_text (a : ReversePath) (helo : Option Str) :
    (spfIdentity a.text helo).2 = a.domain := by
  rw [spfIdentity_domain a.trim_text a.at_mem_text, a.domainOf_text]
  rfl

theorem ReversePath.spfIdentity_params (a : ReversePath) (hps : ps ≠ []) (helo : Option Str) :
    (spfIdentity (a.bracketed ++ paramsText ps) helo).2 = a.domain <->
      '@' :: a.domain <:+ (paramsText ps).rdropWhile (· == '>') ∨
        (['@'] <:+ (paramsText ps).rdropWhile (· == '>') ∧ helo = some a.domain) := by
  have htrim := a.trim_bracketed (paramsText ps) fun _ => getLast_paramsText
  have hat : '@' ∈ a.bracketed ++ paramsText ps :=
    List.mem_append_left _ (List.mem_cons_of_mem _ (List.mem_append_left _ a.at_mem_text))
  have hhelo : helo.getD [] = a.domain <-> helo = some a.domain := by
    cases helo with
    | none => exact iff_of_false a.domain_ne.symm (Option.some_ne_none a.domain).symm
    | some name => rw [Option.getD_some, Option.some_inj]
  rw [spfIdentity_domain htrim hat, a.domainOf_params hps, hhelo]

theorem evaluateSpf_params_iff {gw : InboundGateway} {answers : Answers} {s : MxSession}
    (hsender : forall ip domain sender other,
      answers.checkHost ip domain sender = answers.checkHost ip domain other)
    (a : ReversePath) (ps : List EsmtpParam) :
    gw.evaluateSpf answers s.peer a.bracketed s.helo =
        gw.evaluateSpf answers s.peer (a.bracketed ++ paramsText ps) s.helo <->
      SpfAlike gw s a.domain ps := by
  rw [SpfAlike]
  by_cases hps : ps = []
  · rw [hps, paramsText, List.flatMap_nil, List.append_nil]
    exact iff_of_true rfl (Or.inr (Or.inr (Or.inl rfl)))
  · rw [evaluateSpf_eq_iff hsender, or_iff_right hps, a.spfIdentity_bracketed,
      <- a.spfIdentity_params hps]
    exact or_congr_right (or_congr_right eq_comm)

theorem spelling_of_sender (gate : ColdSenderGate) (now : Nat) (st : GateState)
    (resolver : Spf.SpfResolver) (gw : InboundGateway) (answers : Answers) (s : MxSession)
    (hphase : s.phase = Phase.command) (a : ReversePath) (ps : List EsmtpParam) :
    (SpellingsAlike gw (answers.ofGate gate now st resolver) s a ps <->
      gate.Alike now st s.peer.text a.bracketed (a.bracketed ++ paramsText ps) ∧
        gate.Alike now st s.peer.text a.bracketed a.text ∧
        (gate.Admits now st s.peer.text a.bracketed -> SpfAlike gw s a.domain ps)) ∧
    (forall arg, arg ∈ spellings a ps ->
      exists view,
        s.senderView gw (answers.ofGate gate now st resolver) (mailLine arg) = some view ∧
        (s.feedLine gw (answers.ofGate gate now st resolver) (mailLine arg)).reply =
          gw.senderReply view) := by
  have hsender : forall ip domain sender other,
      (answers.ofGate gate now st resolver).checkHost ip domain sender =
        (answers.ofGate gate now st resolver).checkHost ip domain other := by
    intro ip domain sender other
    exact congrArg Prod.fst
      (checkHost_sender resolver ip sender other (Spf.maxChainDepth + 1) rfl _ domain)
  have hview : forall arg, arg ∈ spellings a ps ->
      s.senderView gw (answers.ofGate gate now st resolver) (mailLine arg) =
        some (s.viewOf gw (answers.ofGate gate now st resolver) arg) := by
    intro arg harg
    exact MxSession.senderView_mailLine (spellings_trim harg).1 (spellings_trim harg).2
  have hplain : gw.evaluateSpf (answers.ofGate gate now st resolver) s.peer a.bracketed s.helo =
      gw.evaluateSpf (answers.ofGate gate now st resolver) s.peer a.text s.helo := by
    rw [evaluateSpf_eq_iff hsender, a.spfIdentity_bracketed, a.spfIdentity_text]
    exact Or.inr (Or.inr rfl)
  constructor
  · rw [SpellingsAlike, hview _ List.mem_cons_self,
      hview _ (List.mem_cons_of_mem _ List.mem_cons_self),
      hview _ (List.mem_cons_of_mem _ (List.mem_cons_of_mem _ List.mem_cons_self)),
      Option.some_inj, Option.some_inj, MxSession.viewOf_eq_iff, MxSession.viewOf_eq_iff,
      evaluateSpf_params_iff hsender]
    change ((gate.check now st s.peer.text a.bracketed).1 =
        (gate.check now st s.peer.text (a.bracketed ++ paramsText ps)).1 ∧
      ((gate.check now st s.peer.text a.bracketed).1 = AbuseDecision.accept -> _)) ∧
      (gate.check now st s.peer.text a.bracketed).1 =
        (gate.check now st s.peer.text a.text).1 ∧ _ <-> _
    rw [ColdSenderGate.check_eq_iff, ColdSenderGate.check_eq_iff, ColdSenderGate.check_eq_accept]
    constructor
    · intro h
      exact ⟨h.1.1, h.2.1, h.1.2⟩
    · intro h
      exact ⟨⟨h.1, h.2.2⟩, h.2.1, fun _ => hplain⟩
  · intro arg harg
    exact ⟨_, hview arg harg,
      MxSession.feedLine_mailLine hphase (spellings_trim harg).1 (spellings_trim harg).2⟩

/-!
## A blocked sender who is not refused
-/

def spammer : ReversePath where
  localPart := "spam".toList
  domain := "bad.test".toList
  domain_ne := by decide
  at_not_mem := by decide
  starts := by
    intro c hc
    cases hc
    decide
  ends := by
    intro c hc
    cases hc
    decide

def sized : EsmtpParam where
  text := "SIZE=100".toList
  text_ne := by decide
  visible := by
    intro c hc
    have hall : ("SIZE=100".toList.all fun c => !isWhiteSpace c) = true := by decide
    simpa using List.all_eq_true.mp hall c hc

def strictResolver : Spf.SpfResolver where
  lookupTxt _ domain := Except.ok
    (if domain = "bad.test".toList then ["v=spf1 -all".toList] else [])
  lookupA _ _ := Except.ok []
  lookupAaaa _ _ := Except.ok []
  lookupMx _ _ := Except.ok []

def enforcingGateway : InboundGateway where
  attestDomains := []
  dkimResolver := false
  dkimPolicy := Policy.annotate
  spfResolver := true
  spfPolicy := Policy.enforce
  dmarcResolver := false
  dmarcPolicy := Policy.annotate
  maxMessageBytes := 1000

def silent : Answers where
  resolve _ := none
  check _ _ := AbuseDecision.accept
  checkHost _ _ _ := SpfResult.none
  verifyDkim _ := DkimVerdict.noSignature
  evaluateDmarc _ _ _ _ := DmarcVerdict.noPolicy
  stripHeaders message := message
  seals _ _ := false
  deliver _ _ := DeliveryOutcome.noAck

def spammerSession : MxSession :=
  MxSession.new ⟨"192.0.2.1".toList, some (IpAddr.v4 0xC0000201)⟩ 0

def blockingAnswers : Answers :=
  silent.ofGate (ColdSenderGate.new.blockSender spammer.text) 0 GateState.start strictResolver

def trustingGate : ColdSenderGate :=
  { ColdSenderGate.new with knownIpPrefixes := ["192.0.2.".toList] }

def trustingAnswers : Answers :=
  silent.ofGate trustingGate 0 GateState.start strictResolver

theorem spammer_not_refused :
    (Not (SpellingsAlike enforcingGateway blockingAnswers spammerSession spammer []) ∧
      (spammerSession.feedLine enforcingGateway blockingAnswers
        (mailLine spammer.text)).reply.code = 554 ∧
      (spammerSession.feedLine enforcingGateway blockingAnswers
        (mailLine spammer.bracketed)).reply.code = 451) ∧
    (Not (SpellingsAlike enforcingGateway trustingAnswers spammerSession spammer [sized]) ∧
      (spammerSession.feedLine enforcingGateway trustingAnswers
        (mailLine spammer.bracketed)).reply.code = 550 ∧
      (spammerSession.feedLine enforcingGateway trustingAnswers
        (mailLine (spammer.bracketed ++ paramsText [sized]))).reply.code = 250) := by
  unfold SpellingsAlike
  decide +kernel

theorem spammer_seen_alike :
    SpellingsAlike enforcingGateway trustingAnswers spammerSession spammer [] := by
  have hlisted : PrefixListed trustingGate.knownIpPrefixes spammerSession.peer.text :=
    ⟨"192.0.2.".toList, by decide, by decide⟩
  have halike : forall first second, trustingGate.Alike 0 GateState.start
      spammerSession.peer.text first second := by
    intro first second
    exact Or.inr ⟨iff_of_false List.not_mem_nil List.not_mem_nil, Or.inr (Or.inl hlisted)⟩
  exact (spelling_of_sender trustingGate 0 GateState.start strictResolver enforcingGateway silent
    spammerSession rfl spammer []).1.mpr
    ⟨halike _ _, halike _ _, fun _ => Or.inr (Or.inr (Or.inl rfl))⟩

end Gateway
end Ephor
