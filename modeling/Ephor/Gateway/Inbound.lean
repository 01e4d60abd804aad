import Ephor.Foundation.Text

/-!
# The inbound gateway

`pier-gateway/src/inbound.rs`: a legacy message comes in over SMTP, is sealed to the key
of its recipient and goes out into the mesh.  The directory, the mesh, the anti-abuse
gate and the DNS behind SPF, DKIM and DMARC are trait objects that may answer every call
differently, so what they answer while one line is handled is an input of that line.
-/

namespace Ephor
namespace Gateway

open Foundation
open Foundation.Text

/-!
# What the gateway asks
-/

abbrev Str := List Char

structure SmtpReply where
  code : UInt16
  text : String
deriving DecidableEq

def SmtpReply.wire (reply : SmtpReply) : String :=
  toString reply.code ++ " " ++ reply.text ++ "\r\n"

structure RecipientKey where
  ik : Bytes
  sealPub : Bytes
deriving DecidableEq

inductive DeliveryOutcome where
  | acked
  | noAck
deriving DecidableEq

inductive AbuseDecision where
  | accept
  | reject (code : UInt16) (reason : String)
deriving DecidableEq

inductive SpfResult where
  | pass
  | fail
  | softFail
  | neutral
  | none
  | tempError
  | permError
deriving DecidableEq

structure SpfOutcome where
  result : SpfResult
  domain : Str
deriving DecidableEq

def SpfOutcome.unevaluated : SpfOutcome := ⟨SpfResult.none, []⟩

/-- The reason of a failed verification is not looked at. -/
inductive DkimVerdict where
  | pass (domain selector : Str)
  | fail
  | noSignature
  | keyUnavailable (domain selector : Str)
deriving DecidableEq

inductive DmarcDisposition where
  | none
  | quarantine
  | reject
deriving DecidableEq

inductive DmarcVerdict where
  | pass
  | fail (disposition : DmarcDisposition)
  | noPolicy
  | permError
deriving DecidableEq

/-- `DkimPolicy`, `SpfPolicy` and `DmarcHandling`. -/
inductive Policy where
  | annotate
  | enforce
deriving DecidableEq

inductive IpAddr where
  | v4 (bits : BitVec 32)
  | v6 (bits : BitVec 128)
deriving DecidableEq

/-- The address of the peer, as text and as what the text parses to. -/
structure Peer where
  text : Str
  addr : Option IpAddr
deriving DecidableEq

/-- A sealed MOTE, seen as who can open it and what is inside. -/
structure Envelope where
  recipient : RecipientKey
  message : Bytes
deriving DecidableEq

structure Attestation where
  domain : Str
  receivedAt : UInt64
  smtpMailFrom : Str
  smtpRcptTo : Str
  mote : Envelope
deriving DecidableEq

/-- One call of `MeshDelivery::deliver`. -/
structure Delivery where
  env : Envelope
  attestation : Attestation
  outcome : DeliveryOutcome
deriving DecidableEq

/-- What the parts of the gateway answer while one line is handled. -/
structure Answers where
  resolve : Str -> Option RecipientKey
  check : Str -> Str -> AbuseDecision
  /-- `spf::check_host`, by the address, the domain and the sender. -/
  checkHost : IpAddr -> Str -> Str -> SpfResult
  /-- `dkim::verify_with_resolver`. -/
  verifyDkim : Bytes -> DkimVerdict
  /-- `dmarc::header_from` and `dmarc::evaluate`, by the message, the envelope domain, the
  SPF result and the DKIM verdict. -/
  evaluateDmarc : Bytes -> Str -> Option SpfResult -> DkimVerdict -> DmarcVerdict
  /-- `strip_trust_boundary_headers`. -/
  stripHeaders : Bytes -> Bytes
  /-- Whether `build_mote` seals the message to the key. -/
  seals : RecipientKey -> Bytes -> Bool
  deliver : Envelope -> Attestation -> DeliveryOutcome

/-- A line of the dialog, with what the parts of the gateway answer meanwhile. -/
structure Line where
  answers : Answers
  bytes : Bytes

structure InboundGateway where
  /-- The domains of `attest_keys`. -/
  attestDomains : List Str
  dkimResolver : Bool
  dkimPolicy : Policy
  spfResolver : Bool
  spfPolicy : Policy
  dmarcResolver : Bool
  dmarcPolicy : Policy
  maxMessageBytes : Nat
deriving DecidableEq

inductive InboundError where
  | noRecipient (rcpt : Str)
  | noAttestationKey (domain : Str)
  | badAddress (rcpt : Str)
  | sealFailed
deriving DecidableEq

/-- Without the angle brackets: `trim_start_matches('<').trim_end_matches('>')`. -/
def trimBrackets (addr : Str) : Str :=
  (addr.dropWhile (· == '<')).rdropWhile (· == '>')

def domainOf (addr : Str) : Option Str :=
  ((rsplitOnce '@' (trimBrackets (trim addr))).map Prod.snd).filter fun d => d != []

/-!
# Sender checks
-/

/-- The sender and the domain that `spf::evaluate` asks about: those of the `HELO` name
when the reverse-path has no domain. -/
def spfIdentity (mailFrom : Str) (helo : Option Str) : Str × Str :=
  let trimmed := trim mailFrom
  let fallback := ("postmaster@".toList ++ helo.getD [], helo.getD [])
  if trimmed = [] ∨ trimmed = "<>".toList then
    fallback
  else
    match domainOf trimmed with
    | some d => (trimmed, d)
    | none => fallback

def spfEvaluate (answers : Answers) (ip : IpAddr) (mailFrom : Str) (helo : Option Str) :
    SpfOutcome :=
  let (sender, domain) := spfIdentity mailFrom helo
  if domain = [] then
    ⟨SpfResult.none, domain⟩
  else
    ⟨answers.checkHost ip domain sender, domain⟩

namespace InboundGateway

variable (gw : InboundGateway) (answers : Answers)

def evaluateSpf (peer : Peer) (mailFrom : Str) (helo : Option Str) : SpfOutcome :=
  if gw.spfResolver then
    match peer.addr with
    | some ip => spfEvaluate answers ip mailFrom helo
    | none => SpfOutcome.unevaluated
  else
    SpfOutcome.unevaluated

def spfGate (outcome : SpfOutcome) : Except SmtpReply Unit :=
  if gw.spfPolicy ≠ Policy.enforce then
    Except.ok ()
  else
    match outcome.result with
    | SpfResult.fail =>
        Except.error ⟨550,
          "5.7.23 SPF hard fail (RFC 7208): sender IP not authorized for this domain"⟩
    | SpfResult.tempError =>
        Except.error ⟨451,
          "4.4.3 SPF temporary DNS error evaluating sender policy, please retry"⟩
    | _ => Except.ok ()

def verifyInboundDkim (message : Bytes) : DkimVerdict :=
  if gw.dkimResolver then answers.verifyDkim message else DkimVerdict.noSignature

def dkimGate (verdict : DkimVerdict) : Except SmtpReply Unit :=
  if gw.dkimPolicy ≠ Policy.enforce then
    Except.ok ()
  else
    match verdict with
    | DkimVerdict.fail =>
        Except.error ⟨550, "5.7.20 DKIM signature present but does not verify"⟩
    | _ => Except.ok ()

def dmarcVerdictWithDkim (data : Bytes) (spf : Option SpfOutcome) (dkim : DkimVerdict)
    (mailFrom : Str) : DmarcVerdict :=
  if gw.dmarcResolver then
    answers.evaluateDmarc data ((domainOf mailFrom).getD []) (spf.map SpfOutcome.result) dkim
  else
    DmarcVerdict.noPolicy

def dmarcGate (data : Bytes) (spf : Option SpfOutcome) (dkim : DkimVerdict)
    (mailFrom : Str) : Except SmtpReply Unit :=
  if gw.dmarcPolicy ≠ Policy.enforce then
    Except.ok ()
  else
    match gw.dmarcVerdictWithDkim answers data spf dkim mailFrom with
    | DmarcVerdict.fail DmarcDisposition.reject =>
        Except.error ⟨550,
          "5.7.1 message failed DMARC (RFC 7489): policy=reject and SPF/DKIM not aligned"⟩
    | _ => Except.ok ()

/-!
# Sealing and delivery
-/

/-- The domain of `attest_key_for`. -/
def attestKeyFor (domain : Str) : Option Str :=
  gw.attestDomains.find? fun d => eqIgnoreCase d domain

def wrapAndAttest (mailFrom rcptTo : Str) (data : Bytes) (now : UInt64) :
    Except InboundError (Envelope × Attestation) := do
  let domain <- (domainOf rcptTo).elim (Except.error (InboundError.badAddress rcptTo)) Except.ok
  let recip <-
    (answers.resolve rcptTo).elim (Except.error (InboundError.noRecipient rcptTo)) Except.ok
  let attestKey <- (gw.attestKeyFor domain).elim
    (Except.error (InboundError.noAttestationKey domain)) Except.ok
  let hygienic := answers.stripHeaders data
  if answers.seals recip hygienic then
    let env : Envelope := ⟨recip, hygienic⟩
    return (env, ⟨attestKey, now, mailFrom, rcptTo, env⟩)
  else
    Except.error InboundError.sealFailed

/-- The reply to a message that could not be wrapped. -/
def replyToError : InboundError -> SmtpReply
  | InboundError.noRecipient _ => ⟨550, "5.1.1 no such user here"⟩
  | InboundError.badAddress _ => ⟨550, "5.1.1 no such user here"⟩
  | InboundError.noAttestationKey _ => ⟨451, "4.3.5 gateway not configured for this domain"⟩
  | InboundError.sealFailed => ⟨451, "4.3.0 temporary failure wrapping message"⟩

def replyToOutcome : DeliveryOutcome -> SmtpReply
  | DeliveryOutcome.acked => ⟨250, "2.6.0 message durably accepted"⟩
  | DeliveryOutcome.noAck =>
      ⟨451, "4.4.1 recipient has not durably accepted yet, try again later"⟩

/-- `accept_message_with_spf`: the reply, and the delivery that was made, if any. -/
def acceptMessageWithSpf (mailFrom rcptTo : Str) (data : Bytes) (now : UInt64)
    (spf : Option SpfOutcome) : SmtpReply × Option Delivery :=
  let dkim := gw.verifyInboundDkim answers data
  match gw.dkimGate dkim with
  | Except.error reply => (reply, none)
  | Except.ok _ =>
      match gw.dmarcGate answers data spf dkim mailFrom with
      | Except.error reply => (reply, none)
      | Except.ok _ =>
          match gw.wrapAndAttest answers mailFrom rcptTo data now with
          | Except.error e => (replyToError e, none)
          | Except.ok (env, attestation) =>
              let outcome := answers.deliver env attestation
              (replyToOutcome outcome, some ⟨env, attestation, outcome⟩)

def rcptAcceptable (rcpt : Str) : Except SmtpReply Unit :=
  match domainOf rcpt with
  | none => Except.error ⟨501, "5.1.3 bad recipient address"⟩
  | some domain =>
      match answers.resolve rcpt with
      | none => Except.error ⟨550, "5.1.1 no such user here"⟩
      | some _ =>
          match gw.attestKeyFor domain with
          | none => Except.error ⟨451, "4.3.5 gateway not configured for this domain"⟩
          | some _ => Except.ok ()

end InboundGateway

/-!
# The session
-/

inductive Phase where
  | command
  | data
deriving DecidableEq

structure MxSession where
  peer : Peer
  now : UInt64
  phase : Phase
  helo : Option Str
  mailFrom : Option Str
  rcptTo : Option Str
  data : Bytes
  sizeExceeded : Bool
  spfOutcome : Option SpfOutcome
deriving DecidableEq

/-- What handling a line gives: the session, the reply, and the delivery made, if any. -/
structure Fed where
  session : MxSession
  reply : SmtpReply
  delivery : Option Delivery
deriving DecidableEq

inductive Verb where
  | helo
  | mail
  | rcpt
  | data
  | rset
  | noop
  | quit
  | unknown
deriving DecidableEq

def Verb.ofText (verb : Str) : Verb :=
  if verb = "HELO".toList ∨ verb = "EHLO".toList then Verb.helo
  else if verb = "MAIL".toList then Verb.mail
  else if verb = "RCPT".toList then Verb.rcpt
  else if verb = "DATA".toList then Verb.data
  else if verb = "RSET".toList then Verb.rset
  else if verb = "NOOP".toList then Verb.noop
  else if verb = "QUIT".toList then Verb.quit
  else Verb.unknown

/-- The verb and the argument of a command line: the line is trimmed as a whole only when
there is no space in it. -/
def splitCommand (line : Str) : Str × Str :=
  match splitOnce ' ' line with
  | some (v, r) => (upper v, trim r)
  | none => (upper (trim line), [])

/-- The argument of `MAIL`, after `FROM:`. -/
def mailAddress (rest : Str) : Option Str :=
  ((rest.dropPrefix? "FROM:".toList).or (rest.dropPrefix? "from:".toList)).map trim

/-- The argument of `RCPT`, after `TO:`. -/
def rcptAddress (rest : Str) : Option Str :=
  ((rest.dropPrefix? "TO:".toList).or (rest.dropPrefix? "to:".toList)).map fun a =>
    trimBrackets (trim a)

namespace MxSession

def new (peer : Peer) (now : UInt64) : MxSession where
  peer := peer
  now := now
  phase := Phase.command
  helo := none
  mailFrom := none
  rcptTo := none
  data := []
  sizeExceeded := false
  spfOutcome := none

def resetTransaction (s : MxSession) : MxSession :=
  { s with
    mailFrom := none
    rcptTo := none
    data := []
    sizeExceeded := false
    spfOutcome := none }

variable (gw : InboundGateway) (answers : Answers) (s : MxSession)

def refuse (reply : SmtpReply) : Fed := ⟨s, reply, none⟩

def cmdHelo (rest : Str) : Fed :=
  let arg := trim rest
  ⟨{ s with helo := if arg = [] then none else some arg },
    ⟨250, "pier-gateway at your service"⟩, none⟩

def cmdMail (rest : Str) : Fed :=
  match mailAddress rest with
  | none => s.refuse ⟨501, "5.5.4 syntax: MAIL FROM:<address>"⟩
  | some addr =>
      match answers.check s.peer.text addr with
      | AbuseDecision.reject code reason => s.refuse ⟨code, reason⟩
      | AbuseDecision.accept =>
          let outcome := gw.evaluateSpf answers s.peer addr s.helo
          match gw.spfGate outcome with
          | Except.error reply => s.refuse reply
          | Except.ok _ =>
              ⟨{ s with mailFrom := some addr, spfOutcome := some outcome },
                ⟨250, "2.1.0 sender ok"⟩, none⟩

def cmdRcpt (rest : Str) : Fed :=
  if s.mailFrom = none then
    s.refuse ⟨503, "5.5.1 need MAIL before RCPT"⟩
  else
    match rcptAddress rest with
    | none => s.refuse ⟨501, "5.5.4 syntax: RCPT TO:<address>"⟩
    | some addr =>
        match gw.rcptAcceptable answers addr with
        | Except.error reply => s.refuse reply
        | Except.ok _ => ⟨{ s with rcptTo := some addr }, ⟨250, "2.1.5 recipient ok"⟩, none⟩

def cmdData : Fed :=
  if s.mailFrom = none ∨ s.rcptTo = none then
    s.refuse ⟨503, "5.5.1 need MAIL and RCPT before DATA"⟩
  else
    ⟨{ s with phase := Phase.data }, ⟨354, "start mail input; end with <CRLF>.<CRLF>"⟩, none⟩

def dot : Bytes := [0x2E]

/-- A line of the message, with the dot-stuffing undone. -/
def unstuff (line : Bytes) : Bytes :=
  (line.dropPrefix? dot).getD line

/-- The end of the message: the session is ready for the next transaction before the
message is handed on. -/
def endData : Fed :=
  let ready := { s with phase := Phase.command }.resetTransaction
  if s.sizeExceeded then
    ⟨ready, ⟨552, "5.3.4 message size exceeds fixed maximum message size"⟩, none⟩
  else
    let (reply, delivery) :=
      gw.acceptMessageWithSpf answers (s.mailFrom.getD []) (s.rcptTo.getD []) s.data s.now
        s.spfOutcome
    ⟨ready, reply, delivery⟩

/-- A message over the limit is read to its end, and nothing of it is kept. -/
def appendData (line : Bytes) : MxSession :=
  if s.sizeExceeded then
    s
  else if gw.maxMessageBytes < s.data.length + (unstuff line).length + 2 then
    { s with sizeExceeded := true, data := [] }
  else
    { s with data := s.data ++ unstuff line ++ [0x0D, 0x0A] }

def feedData (line : Bytes) : Fed :=
  if line = dot then
    s.endData gw answers
  else
    ⟨s.appendData gw line, ⟨0, ""⟩, none⟩

def feedCommand (line : Str) : Fed :=
  let (verb, rest) := splitCommand line
  match Verb.ofText verb with
  | Verb.helo => s.cmdHelo rest
  | Verb.mail => s.cmdMail gw answers rest
  | Verb.rcpt => s.cmdRcpt gw answers rest
  | Verb.data => s.cmdData
  | Verb.rset => ⟨s.resetTransaction, ⟨250, "2.0.0 flushed"⟩, none⟩
  | Verb.noop => s.refuse ⟨250, "2.0.0 ok"⟩
  | Verb.quit => s.refuse ⟨221, "2.0.0 bye"⟩
  | Verb.unknown => s.refuse ⟨502, "5.5.1 command not implemented"⟩

/-- `feed_line_bytes`: a line of the message as it is, any other line as text. -/
def feedLineBytes (line : Bytes) : Fed :=
  match s.phase with
  | Phase.data => s.feedData gw answers line
  | Phase.command => s.feedCommand gw answers (fromUtf8Lossy line)

def feedLine (line : Str) : Fed :=
  s.feedLineBytes gw answers (utf8 line)

end MxSession

/-!
# What a line can do
-/

namespace InboundGateway

variable {gw : InboundGateway} {answers : Answers}

theorem dkimGate_error {verdict : DkimVerdict} {reply : SmtpReply}
    (h : gw.dkimGate verdict = Except.error reply) : reply.code = 550 := by
  unfold dkimGate at h
  split at h
  · cases h
  · split at h
    · cases h
      rfl
    · cases h

theorem dmarcGate_error {data : Bytes} {spf : Option SpfOutcome} {dkim : DkimVerdict}
    {mailFrom : Str} {reply : SmtpReply}
    (h : gw.dmarcGate answers data spf dkim mailFrom = Except.error reply) : reply.code = 550 := by
  unfold dmarcGate at h
  split at h
  · cases h
  · split at h
    · cases h
      rfl
    · cases h

theorem rcptAcceptable_error {rcpt : Str} {reply : SmtpReply}
    (h : gw.rcptAcceptable answers rcpt = Except.error reply) : reply.code ≠ 250 := by
  unfold rcptAcceptable at h
  split at h
  · cases h
    decide
  · split at h
    · cases h
      decide
    · split at h
      · cases h
        decide
      · cases h

theorem replyToError_code (e : InboundError) :
    (replyToError e).code = 550 ∨ (replyToError e).code = 451 := by
  cases e <;> simp [replyToError]

theorem acceptMessage_code (gw : InboundGateway) (answers : Answers)
    (mailFrom rcptTo : Str) (data : Bytes) (now : UInt64) (spf : Option SpfOutcome) :
    (gw.acceptMessageWithSpf answers mailFrom rcptTo data now spf).1.code ∈ [550, 451, 250] := by
  unfold acceptMessageWithSpf
  dsimp only
  split
  · rename_i hgate
    rw [dkimGate_error hgate]
    decide
  · split
    · rename_i hgate
      rw [dmarcGate_error hgate]
      decide
    · split
      · rename_i e _
        rcases replyToError_code e with hcode | hcode
        · rw [hcode]
          decide
        · rw [hcode]
          decide
      · cases answers.deliver _ _ <;> simp [replyToOutcome]

theorem elim_eq_ok {ε α : Type} {x : Option α} {e : ε} {a : α}
    (h : x.elim (Except.error e) Except.ok = Except.ok a) : x = some a := by
  cases x with
  | none => cases h
  | some b =>
      cases h
      rfl

theorem wrapAndAttest_ok {mailFrom rcptTo : Str} {data : Bytes} {now : UInt64}
    {env : Envelope} {attestation : Attestation}
    (h : gw.wrapAndAttest answers mailFrom rcptTo data now = Except.ok (env, attestation)) :
    answers.resolve rcptTo = some env.recipient ∧ env.message = answers.stripHeaders data := by
  rcases bind_eq_ok.mp h with ⟨domain, _, h⟩
  rcases bind_eq_ok.mp h with ⟨recip, hrecip, h⟩
  rcases bind_eq_ok.mp h with ⟨attestKey, _, h⟩
  dsimp only at h
  split at h
  · cases h
    exact ⟨elim_eq_ok hrecip, rfl⟩
  · cases h

theorem acceptMessage_of_code {mailFrom rcptTo : Str} {data : Bytes} {now : UInt64}
    {spf : Option SpfOutcome}
    (h : (gw.acceptMessageWithSpf answers mailFrom rcptTo data now spf).1.code = 250) :
    exists d, (gw.acceptMessageWithSpf answers mailFrom rcptTo data now spf).2 = some d ∧
      d.outcome = DeliveryOutcome.acked ∧ d.env.message = answers.stripHeaders data ∧
      answers.resolve rcptTo = some d.env.recipient := by
  unfold acceptMessageWithSpf at h ⊢
  dsimp only at h ⊢
  split at h
  · rename_i hgate
    rw [dkimGate_error hgate] at h
    exact absurd h (by decide)
  · split at h
    · rename_i hgate
      rw [dmarcGate_error hgate] at h
      exact absurd h (by decide)
    · split at h
      · rename_i e _
        rcases replyToError_code e with hcode | hcode
        · rw [hcode] at h
          exact absurd h (by decide)
        · rw [hcode] at h
          exact absurd h (by decide)
      · rename_i env attestation hwrap
        rcases wrapAndAttest_ok hwrap with ⟨hresolve, hmessage⟩
        refine ⟨⟨env, attestation, answers.deliver env attestation⟩, rfl, ?_, hmessage,
          hresolve⟩
        cases houtcome : answers.deliver env attestation with
        | acked => rfl
        | noAck =>
            rw [houtcome] at h
            cases h

end InboundGateway

theorem MxSession.cmdRcpt_cases (gw : InboundGateway) (answers : Answers) (s : MxSession)
    (rest : Str) :
    (s.cmdRcpt gw answers rest).session = s ∧ (s.cmdRcpt gw answers rest).reply.code ≠ 250 ∨
      exists addr, rcptAddress rest = some addr ∧
        (s.cmdRcpt gw answers rest).session = { s with rcptTo := some addr } ∧
        (s.cmdRcpt gw answers rest).reply.code = 250 := by
  unfold MxSession.cmdRcpt
  split
  · left
    exact ⟨rfl, by simp [MxSession.refuse]⟩
  · split
    · left
      exact ⟨rfl, by simp [MxSession.refuse]⟩
    · rename_i addr haddr
      split
      · rename_i hcheck
        left
        exact ⟨rfl, InboundGateway.rcptAcceptable_error hcheck⟩
      · right
        exact ⟨addr, haddr, rfl, rfl⟩

theorem MxSession.cmdMail_cases (gw : InboundGateway) (answers : Answers) (s : MxSession)
    (rest : Str) :
    (s.cmdMail gw answers rest).session = s ∨
      exists addr outcome, (s.cmdMail gw answers rest).session =
        { s with mailFrom := some addr, spfOutcome := some outcome } := by
  unfold MxSession.cmdMail
  split
  · exact Or.inl rfl
  · rename_i addr _
    split
    · exact Or.inl rfl
    · dsimp only
      split
      · exact Or.inl rfl
      · exact Or.inr ⟨addr, _, rfl⟩

theorem MxSession.cmdData_cases (s : MxSession) :
    s.cmdData.session = s ∧ (s.mailFrom = none ∨ s.rcptTo = none) ∨
      s.mailFrom ≠ none ∧ s.rcptTo ≠ none ∧
        s.cmdData.session = { s with phase := Phase.data } := by
  unfold MxSession.cmdData
  split
  · rename_i hmissing
    left
    exact ⟨rfl, hmissing⟩
  · rename_i hready
    right
    exact ⟨fun hnone => hready (Or.inl hnone), fun hnone => hready (Or.inr hnone), rfl⟩

/-- What a command can do to the session, with the tests that led to it. -/
inductive CommandMoves (s : MxSession) (verb : Verb) (rest : Str) (reply : SmtpReply) :
    MxSession -> Prop where
  | kept : verb ≠ Verb.helo -> verb ≠ Verb.rset -> (verb = Verb.rcpt -> reply.code ≠ 250) ->
      (verb = Verb.data -> s.mailFrom = none ∨ s.rcptTo = none) ->
      CommandMoves s verb rest reply s
  | named : verb = Verb.helo ->
      CommandMoves s verb rest reply
        { s with helo := if trim rest = [] then none else some (trim rest) }
  | sender (addr : Str) (outcome : SpfOutcome) : verb = Verb.mail ->
      CommandMoves s verb rest reply
        { s with mailFrom := some addr, spfOutcome := some outcome }
  | recipient (addr : Str) : verb = Verb.rcpt -> rcptAddress rest = some addr ->
      reply.code = 250 -> CommandMoves s verb rest reply { s with rcptTo := some addr }
  | started : verb = Verb.data -> s.mailFrom ≠ none -> s.rcptTo ≠ none ->
      CommandMoves s verb rest reply { s with phase := Phase.data }
  | flushed : verb = Verb.rset -> CommandMoves s verb rest reply s.resetTransaction

theorem CommandMoves.idle {s : MxSession} {verb : Verb} {rest : Str} {reply : SmtpReply}
    (hverb : verb = Verb.mail ∨ verb = Verb.noop ∨ verb = Verb.quit ∨ verb = Verb.unknown) :
    CommandMoves s verb rest reply s := by
  rcases hverb with hverb | hverb | hverb | hverb
  all_goals
    subst hverb
    exact CommandMoves.kept (by decide) (by decide) (fun h => nomatch h) (fun h => nomatch h)

theorem MxSession.feedCommand_moves (gw : InboundGateway) (answers : Answers) (s : MxSession)
    (text : Str) :
    CommandMoves s (Verb.ofText (splitCommand text).1) (splitCommand text).2
      (s.feedCommand gw answers text).reply (s.feedCommand gw answers text).session := by
  unfold MxSession.feedCommand
  rcases splitCommand text with ⟨word, rest⟩
  dsimp only
  cases Verb.ofText word with
  | helo => exact CommandMoves.named rfl
  | mail =>
      dsimp only
      rcases MxSession.cmdMail_cases gw answers s rest with hsame | ⟨addr, outcome, hset⟩
      · rw [hsame]
        exact CommandMoves.idle (Or.inl rfl)
      · rw [hset]
        exact CommandMoves.sender addr outcome rfl
  | rcpt =>
      dsimp only
      rcases MxSession.cmdRcpt_cases gw answers s rest with
        ⟨hsame, hcode⟩ | ⟨addr, haddr, hset, hcode⟩
      · rw [hsame]
        exact CommandMoves.kept (by decide) (by decide) (fun _ => hcode) (fun h => nomatch h)
      · rw [hset]
        exact CommandMoves.recipient addr rfl haddr hcode
  | data =>
      dsimp only
      rcases MxSession.cmdData_cases s with ⟨hsame, hmissing⟩ | ⟨hmail, hrcpt, hset⟩
      · rw [hsame]
        exact CommandMoves.kept (by decide) (by decide) (fun h => nomatch h) (fun _ => hmissing)
      · rw [hset]
        exact CommandMoves.started rfl hmail hrcpt
  | rset => exact CommandMoves.flushed rfl
  | noop => exact CommandMoves.idle (Or.inr (Or.inl rfl))
  | quit => exact CommandMoves.idle (Or.inr (Or.inr (Or.inl rfl)))
  | unknown => exact CommandMoves.idle (Or.inr (Or.inr (Or.inr rfl)))

theorem MxSession.endData_session (gw : InboundGateway) (answers : Answers) (s : MxSession) :
    (s.endData gw answers).session =
      ({ s with phase := Phase.command } : MxSession).resetTransaction := by
  unfold MxSession.endData
  dsimp only
  split
  · rfl
  · rfl

theorem MxSession.endData_of_code {gw : InboundGateway} {answers : Answers} {s : MxSession}
    (h : (s.endData gw answers).reply.code = 250) :
    exists d, (s.endData gw answers).delivery = some d ∧
      d.outcome = DeliveryOutcome.acked ∧ d.env.message = answers.stripHeaders s.data ∧
      answers.resolve (s.rcptTo.getD []) = some d.env.recipient := by
  unfold MxSession.endData at h ⊢
  dsimp only at h ⊢
  split at h
  · cases h
  · rename_i hsize
    rw [if_neg hsize]
    exact InboundGateway.acceptMessage_of_code h

theorem MxSession.appendData_keeps (gw : InboundGateway) (s : MxSession) (line : Bytes) :
    (s.appendData gw line).rcptTo = s.rcptTo ∧ (s.appendData gw line).phase = s.phase := by
  unfold MxSession.appendData
  repeat' split
  all_goals exact ⟨rfl, rfl⟩

end Gateway
end Ephor
