import Ephor.Foundation.Transition
import Ephor.Gateway.Inbound

/-!
# No silent loss

The gateway stores nothing: a `250` at the end of a message tells the sender that it may
forget the message.  A session keeps the recipient in one field, which a later `RCPT`
overwrites, so the message reaches the last recipient only, and the `250` is right for
the others exactly when they resolve to the same key.
-/

namespace Ephor
namespace Gateway

open Foundation
open Foundation.Text

/-- A session together with the recipients it has accepted in this transaction. -/
structure Transaction where
  session : MxSession
  accepted : List Str

namespace Transaction

variable (gw : InboundGateway)

def start (peer : Peer) (now : UInt64) : Transaction :=
  ⟨MxSession.new peer now, []⟩

def fed (t : Transaction) (line : Line) : Fed :=
  t.session.feedLineBytes gw line.answers line.bytes

def EndsData (t : Transaction) (line : Line) : Prop :=
  t.session.phase = Phase.data ∧ line.bytes = MxSession.dot

instance (t : Transaction) (line : Line) : Decidable (t.EndsData line) :=
  inferInstanceAs (Decidable (_ ∧ _))

/-- The recipients accepted since the transaction began: since the last `RSET`, the end
of the last message or the start of the session. -/
def acceptedAfter (t : Transaction) (line : Line) : List Str :=
  match t.session.phase with
  | Phase.data => if line.bytes = MxSession.dot then [] else t.accepted
  | Phase.command =>
      let (verb, rest) := splitCommand (fromUtf8Lossy line.bytes)
      match Verb.ofText verb with
      | Verb.rset => []
      | Verb.rcpt =>
          if (t.fed gw line).reply.code = 250 then
            t.accepted ++ (rcptAddress rest).toList
          else
            t.accepted
      | _ => t.accepted

def step (t : Transaction) (line : Line) : Transaction :=
  ⟨(t.fed gw line).session, t.acceptedAfter gw line⟩

def Delivered (t : Transaction) (line : Line) (rcpt : Str) : Prop :=
  exists d, d ∈ (t.fed gw line).delivery ∧ d.outcome = DeliveryOutcome.acked ∧
    d.env.message = line.answers.stripHeaders t.session.data ∧
    line.answers.resolve rcpt = some d.env.recipient

instance (t : Transaction) (line : Line) (rcpt : Str) :
    Decidable (t.Delivered gw line rcpt) :=
  inferInstanceAs (Decidable (exists d, d ∈ (t.fed gw line).delivery ∧ _ ∧ _ ∧ _))

/-- A message that is answered `250` was delivered to every recipient accepted for it. -/
def LosesNothing (t : Transaction) (line : Line) : Prop :=
  t.EndsData line -> (t.fed gw line).reply.code = 250 ->
    forall rcpt, rcpt ∈ t.accepted -> t.Delivered gw line rcpt

instance (t : Transaction) (line : Line) : Decidable (t.LosesNothing gw line) :=
  inferInstanceAs (Decidable (_ -> _ -> forall rcpt, rcpt ∈ t.accepted -> _))

/-- When a message is answered `250`, the recipients accepted for it have one key. -/
def OneKey (t : Transaction) (line : Line) : Prop :=
  t.EndsData line -> (t.fed gw line).reply.code = 250 ->
    forall a, a ∈ t.accepted -> forall b, b ∈ t.accepted ->
      line.answers.resolve a = line.answers.resolve b

instance (t : Transaction) (line : Line) : Decidable (t.OneKey gw line) :=
  inferInstanceAs (Decidable (_ -> _ -> forall a, a ∈ t.accepted -> _))

/-!
# One line
-/

/-- The session remembers the last recipient that was accepted, and a message has one. -/
structure Recorded (t : Transaction) : Prop where
  last : t.session.rcptTo = t.accepted.getLast?
  hasRcpt : t.session.phase = Phase.data -> t.session.rcptTo ≠ none

theorem recorded_start (peer : Peer) (now : UInt64) : (start peer now).Recorded where
  last := rfl
  hasRcpt := fun h => nomatch h

variable {gw}

theorem recorded_of_keeps {t u : Transaction} (h : t.Recorded)
    (haccepted : u.accepted = t.accepted) (hrcpt : u.session.rcptTo = t.session.rcptTo)
    (hphase : u.session.phase = t.session.phase) : u.Recorded where
  last := by
    rw [hrcpt, haccepted]
    exact h.last
  hasRcpt := by
    rw [hrcpt, hphase]
    exact h.hasRcpt

theorem recorded_moves {t u : Transaction} {verb : Verb} {rest : Str} {reply : SmtpReply}
    (hphase : t.session.phase = Phase.command) (h : t.Recorded)
    (haccepted : u.accepted =
      match verb with
      | Verb.rset => []
      | Verb.rcpt =>
          if reply.code = 250 then t.accepted ++ (rcptAddress rest).toList else t.accepted
      | _ => t.accepted)
    (hmoves : CommandMoves t.session verb rest reply u.session) : u.Recorded := by
  rcases u with ⟨session, accepted⟩
  dsimp only at hmoves haccepted
  cases hmoves with
  | kept _ hrset hrcpt _ =>
      have hsame : accepted = t.accepted := by
        rw [haccepted]
        cases verb with
        | rset => exact absurd rfl hrset
        | rcpt => exact if_neg (hrcpt rfl)
        | _ => rfl
      exact recorded_of_keeps h hsame rfl rfl
  | named hverb | sender addr outcome hverb =>
      rw [hverb] at haccepted
      exact recorded_of_keeps h haccepted rfl rfl
  | recipient addr hverb haddr hcode =>
      rw [hverb] at haccepted
      dsimp only at haccepted
      rw [if_pos hcode, haddr] at haccepted
      constructor
      · rw [haccepted, Option.toList_some, List.getLast?_concat]
      · intro _
        exact Option.some_ne_none addr
  | started hverb _ hrcpt =>
      rw [hverb] at haccepted
      constructor
      · rw [haccepted]
        exact h.last
      · intro _
        exact hrcpt
  | flushed hverb =>
      rw [hverb] at haccepted
      constructor
      · rw [haccepted]
        rfl
      · intro hdata
        exact absurd (hphase.symm.trans hdata) (by decide)

theorem recorded_command {t : Transaction} {line : Line}
    (hphase : t.session.phase = Phase.command) (h : t.Recorded) : (t.step gw line).Recorded := by
  have hfed : t.fed gw line =
      t.session.feedCommand gw line.answers (fromUtf8Lossy line.bytes) := by
    rw [fed, MxSession.feedLineBytes, hphase]
  have hmoves := MxSession.feedCommand_moves gw line.answers t.session
    (fromUtf8Lossy line.bytes)
  rw [<- hfed] at hmoves
  refine recorded_moves hphase h ?_ hmoves
  change t.acceptedAfter gw line = _
  rw [acceptedAfter, hphase]

theorem recorded_step {t : Transaction} (line : Line) (h : t.Recorded) :
    (t.step gw line).Recorded := by
  cases hphase : t.session.phase with
  | command => exact recorded_command hphase h
  | data =>
      have hfed : t.fed gw line = t.session.feedData gw line.answers line.bytes := by
        rw [fed, MxSession.feedLineBytes, hphase]
      have haccepted : (t.step gw line).accepted = t.acceptedAfter gw line := rfl
      have hsession : (t.step gw line).session = (t.fed gw line).session := rfl
      rw [acceptedAfter, hphase] at haccepted
      rw [hfed, MxSession.feedData] at hsession
      dsimp only at haccepted
      split at hsession
      · rename_i hdot
        rw [if_pos hdot] at haccepted
        rw [MxSession.endData_session] at hsession
        constructor
        · rw [hsession, haccepted]
          rfl
        · intro hdata
          rw [hsession] at hdata
          cases hdata
      · rename_i hdot
        rw [if_neg hdot] at haccepted
        rcases MxSession.appendData_keeps gw t.session line.bytes with ⟨hrcpt, hkept⟩
        exact recorded_of_keeps h haccepted (by rw [hsession]; exact hrcpt)
          (by rw [hsession]; exact hkept)

theorem losesNothing_iff_oneKey {t : Transaction} (line : Line) (h : t.Recorded) :
    t.LosesNothing gw line <-> t.OneKey gw line := by
  have hlast : t.EndsData line -> (t.fed gw line).reply.code = 250 ->
      exists rcpt d, rcpt ∈ t.accepted ∧ (t.fed gw line).delivery = some d ∧
        d.outcome = DeliveryOutcome.acked ∧
        d.env.message = line.answers.stripHeaders t.session.data ∧
        line.answers.resolve rcpt = some d.env.recipient := by
    intro hends hcode
    have hfed : t.fed gw line = t.session.endData gw line.answers := by
      rw [fed, MxSession.feedLineBytes, hends.1]
      exact if_pos hends.2
    rw [hfed] at hcode ⊢
    rcases MxSession.endData_of_code hcode with ⟨d, hd, hacked, hmessage, hresolve⟩
    rcases Option.ne_none_iff_exists'.mp (h.hasRcpt hends.1) with ⟨rcpt, hrcpt⟩
    have hmem := h.last
    rw [hrcpt] at hmem hresolve
    exact ⟨rcpt, d, List.mem_of_getLast? hmem.symm, hd, hacked, hmessage, hresolve⟩
  constructor
  · intro hloses hends hcode a ha b hb
    rcases hloses hends hcode a ha with ⟨d, hd, _, _, hda⟩
    rcases hloses hends hcode b hb with ⟨e, he, _, _, heb⟩
    have hsame : d = e := Option.mem_unique hd he
    rw [hda, heb, hsame]
  · intro hone hends hcode rcpt hrcpt
    rcases hlast hends hcode with ⟨last, d, hmem, hd, hacked, hmessage, hresolve⟩
    refine ⟨d, hd, hacked, hmessage, ?_⟩
    rw [hone hends hcode rcpt hrcpt last hmem, hresolve]

/--
A message answered `250` has reached every recipient accepted for it, in every dialog and
for every behaviour of the directory, the mesh and the other parts, if and only if the
recipients accepted in a transaction have one key whenever its end is answered `250`.
-/
theorem no_silent_loss_iff_one_key (gw : InboundGateway) (peer : Peer) (now : UInt64)
    (lines : List Line) :
    Transition.StepsMeet (step gw) (LosesNothing gw) (start peer now) lines <->
      Transition.StepsMeet (step gw) (OneKey gw) (start peer now) lines :=
  Transition.stepsMeet_congr
    (fun _ line h _ => recorded_step line h)
    (fun _ line h => losesNothing_iff_oneKey line h)
    lines (recorded_start peer now)

/-!
# Two recipients
-/

def annKey : RecipientKey := ⟨[1], [2]⟩

def bobKey : RecipientKey := ⟨[3], [4]⟩

def twoUsers : Answers where
  resolve := fun rcpt =>
    if rcpt = "ann@dmtap.example".toList then some annKey
    else if rcpt = "bob@dmtap.example".toList then some bobKey
    else none
  check := fun _ _ => AbuseDecision.accept
  checkHost := fun _ _ _ => SpfResult.pass
  verifyDkim := fun _ => DkimVerdict.noSignature
  evaluateDmarc := fun _ _ _ _ => DmarcVerdict.noPolicy
  stripHeaders := id
  seals := fun _ _ => true
  deliver := fun _ _ => DeliveryOutcome.acked

def dmtapGateway : InboundGateway where
  attestDomains := ["dmtap.example".toList]
  dkimResolver := false
  dkimPolicy := Policy.annotate
  spfResolver := false
  spfPolicy := Policy.annotate
  dmarcResolver := false
  dmarcPolicy := Policy.annotate
  maxMessageBytes := 26214400

def somePeer : Peer := ⟨"203.0.113.7".toList, some (IpAddr.v4 0xCB007107)⟩

def twoUsersLine (text : String) : Line := ⟨twoUsers, utf8 text.toList⟩

def twoRecipients : List Line :=
  ["MAIL FROM:<eve@legacy.example>", "RCPT TO:<ann@dmtap.example>",
    "RCPT TO:<bob@dmtap.example>", "DATA", "hello", "."].map twoUsersLine

theorem one_recipient_loses_nothing :
    Transition.StepsMeet (step dmtapGateway) (LosesNothing dmtapGateway) (start somePeer 0)
      (twoRecipients.eraseIdx 2) :=
  (no_silent_loss_iff_one_key _ _ _ _).mpr (by decide +kernel)

/-- Both recipients are accepted, the message is answered `250`, and only the second one
gets it. -/
theorem second_recipient_replaces_first :
    Not (Transition.StepsMeet (step dmtapGateway) (LosesNothing dmtapGateway)
      (start somePeer 0) twoRecipients) := by
  decide +kernel

end Transaction

end Gateway
end Ephor
