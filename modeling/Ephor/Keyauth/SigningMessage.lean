import Ephor.Foundation.Framing
import Ephor.Foundation.GoText
import Ephor.Foundation.Strconv

/-!
# What a signature covers

`CanonicalMessage` of `keyauth` writes the domain tag and the fields as segments behind
their lengths, with no count of them.  Every signed request of the rendezvous service and
of the pin role is signed as such a message.  The message of a request determines the kind
of the request and all its signed fields.
-/

namespace Ephor
namespace Keyauth

open Foundation
open Foundation.Framing (putUint32)
open Foundation.GoText (lit)
open Foundation.Strconv (formatInt)

/-!
# Messages
-/

def appendSeg (buf s : Bytes) : Bytes :=
  buf ++ putUint32 (UInt32.ofNat s.length) ++ s

def canonicalMessage (domain : Bytes) (fields : List Bytes) : Bytes :=
  fields.foldl appendSeg (appendSeg [] domain)

theorem foldl_appendSeg (buf : Bytes) (fields : List Bytes) :
    fields.foldl appendSeg buf = buf ++ fields.flatMap Framing.segment := by
  induction fields generalizing buf with
  | nil => exact (List.append_nil buf).symm
  | cons f fields ih =>
      rw [List.foldl_cons, ih, appendSeg, List.flatMap_cons, Framing.segment]
      simp only [List.append_assoc]

theorem canonicalMessage_eq (domain : Bytes) (fields : List Bytes) :
    canonicalMessage domain fields = (domain :: fields).flatMap Framing.segment := by
  rw [canonicalMessage, foldl_appendSeg, List.flatMap_cons]
  rfl

def ShortSegments (domain : Bytes) (fields : List Bytes) : Prop :=
  forall s, s ∈ domain :: fields -> s.length < 2 ^ 32

theorem canonicalMessage_inj {domain domain' : Bytes} {fields fields' : List Bytes}
    (hshort : ShortSegments domain fields) (hshort' : ShortSegments domain' fields')
    (h : canonicalMessage domain fields = canonicalMessage domain' fields') :
    domain = domain' ∧ fields = fields' := by
  rw [canonicalMessage_eq, canonicalMessage_eq] at h
  have hlists := Framing.flatMap_inj Framing.delimits_segment Framing.segment_ne_nil hshort
    hshort' h
  injection hlists with hdomain hfields
  exact ⟨hdomain, hfields⟩

/-!
# Requests

The requests as they are decoded, with the fields that no signature covers.
-/

structure AnnounceRequest where
  key : Bytes
  endpoints : List Bytes
  metadata : Bytes
  ttl : Int64
  nonce : Bytes
  timestamp : Int64
  sig : Bytes

structure WithdrawRequest where
  key : Bytes
  nonce : Bytes
  timestamp : Int64
  sig : Bytes

structure DepositRequest where
  source : Bytes
  target : Bytes
  payload : Bytes
  ttl : Int64
  nonce : Bytes
  timestamp : Int64
  sig : Bytes

structure PollRequest where
  key : Bytes
  nonce : Bytes
  timestamp : Int64
  sig : Bytes
  wait : Int64

structure AckRequest where
  key : Bytes
  ids : List Bytes
  nonce : Bytes
  timestamp : Int64
  sig : Bytes

structure PinRequest where
  key : Bytes
  kind : Bytes
  addr : Bytes
  nonce : Bytes
  timestamp : Int64
  sig : Bytes

/-- `announceSigningMessage`: the fields. -/
def AnnounceRequest.fields (req : AnnounceRequest) : List Bytes :=
  [req.key, formatInt req.timestamp, formatInt req.ttl, req.nonce, req.metadata] ++ req.endpoints

/-- `withdrawSigningMessage`: the fields. -/
def WithdrawRequest.fields (req : WithdrawRequest) : List Bytes :=
  [req.key, formatInt req.timestamp, req.nonce]

/-- `depositSigningMessage`: the fields. -/
def DepositRequest.fields (req : DepositRequest) : List Bytes :=
  [req.source, req.target, formatInt req.timestamp, formatInt req.ttl, req.nonce, req.payload]

/-- `pollSigningMessage`: the fields. -/
def PollRequest.fields (req : PollRequest) : List Bytes :=
  [req.key, formatInt req.timestamp, req.nonce]

/-- `ackSigningMessage`: the fields. -/
def AckRequest.fields (req : AckRequest) : List Bytes :=
  [req.key, formatInt req.timestamp, req.nonce] ++ req.ids

/-- `pinSigningMessage`: the fields. -/
def PinRequest.fields (req : PinRequest) : List Bytes :=
  [req.key, formatInt req.timestamp, req.nonce, req.kind, req.addr]

/-!
# Kinds and their domains
-/

inductive RequestKind where
  | announce
  | withdraw
  | signalDeposit
  | signalPoll
  | signalAck
  | mailboxDeposit
  | mailboxPoll
  | mailboxAck
  | pin
  | unpin
deriving DecidableEq

def RequestKind.domain : RequestKind -> Bytes
  | announce => lit "vulos-rdv/announce/1"
  | withdraw => lit "vulos-rdv/withdraw/1"
  | signalDeposit => lit "vulos-rdv/signal-deposit/1"
  | signalPoll => lit "vulos-rdv/signal-poll/1"
  | signalAck => lit "vulos-rdv/signal-ack/1"
  | mailboxDeposit => lit "vulos-rdv/mailbox-deposit/1"
  | mailboxPoll => lit "vulos-rdv/mailbox-poll/1"
  | mailboxAck => lit "vulos-rdv/mailbox-ack/1"
  | pin => lit "vulos-pub/pin/1"
  | unpin => lit "vulos-pub/unpin/1"

def RequestKind.all : List RequestKind :=
  [announce, withdraw, signalDeposit, signalPoll, signalAck, mailboxDeposit, mailboxPoll,
    mailboxAck, pin, unpin]

/-- The first kind with the domain. -/
def RequestKind.ofDomain (domain : Bytes) : Option RequestKind :=
  RequestKind.all.find? fun kind => kind.domain == domain

theorem RequestKind.ofDomain_domain (kind : RequestKind) :
    RequestKind.ofDomain kind.domain = some kind := by
  cases kind <;> decide +kernel

theorem RequestKind.domain_injective {kind kind' : RequestKind}
    (h : kind.domain = kind'.domain) : kind = kind' := by
  have hfirst := RequestKind.ofDomain_domain kind
  rw [h, RequestKind.ofDomain_domain kind'] at hfirst
  injection hfirst with hsame
  exact hsame.symm

theorem RequestKind.length_domain (kind : RequestKind) : kind.domain.length < 2 ^ 32 := by
  cases kind <;> decide +kernel

inductive SignedRequest where
  | announce (req : AnnounceRequest)
  | withdraw (req : WithdrawRequest)
  | signalDeposit (req : DepositRequest)
  | signalPoll (req : PollRequest)
  | signalAck (req : AckRequest)
  | mailboxDeposit (req : DepositRequest)
  | mailboxPoll (req : PollRequest)
  | mailboxAck (req : AckRequest)
  | pin (req : PinRequest)
  | unpin (req : PinRequest)

namespace SignedRequest

def kind : SignedRequest -> RequestKind
  | announce _ => RequestKind.announce
  | withdraw _ => RequestKind.withdraw
  | signalDeposit _ => RequestKind.signalDeposit
  | signalPoll _ => RequestKind.signalPoll
  | signalAck _ => RequestKind.signalAck
  | mailboxDeposit _ => RequestKind.mailboxDeposit
  | mailboxPoll _ => RequestKind.mailboxPoll
  | mailboxAck _ => RequestKind.mailboxAck
  | pin _ => RequestKind.pin
  | unpin _ => RequestKind.unpin

def fields : SignedRequest -> List Bytes
  | announce req => req.fields
  | withdraw req => req.fields
  | signalDeposit req => req.fields
  | signalPoll req => req.fields
  | signalAck req => req.fields
  | mailboxDeposit req => req.fields
  | mailboxPoll req => req.fields
  | mailboxAck req => req.fields
  | pin req => req.fields
  | unpin req => req.fields

def signingMessage (req : SignedRequest) : Bytes :=
  canonicalMessage req.kind.domain req.fields

/-- The request without what its signature does not cover. -/
def signed : SignedRequest -> SignedRequest
  | announce req => announce { req with sig := [] }
  | withdraw req => withdraw { req with sig := [] }
  | signalDeposit req => signalDeposit { req with sig := [] }
  | signalPoll req => signalPoll { req with sig := [], wait := 0 }
  | signalAck req => signalAck { req with sig := [] }
  | mailboxDeposit req => mailboxDeposit { req with sig := [] }
  | mailboxPoll req => mailboxPoll { req with sig := [], wait := 0 }
  | mailboxAck req => mailboxAck { req with sig := [] }
  | pin req => pin { req with sig := [] }
  | unpin req => unpin { req with sig := [] }

end SignedRequest

/-!
# The fields determine the request
-/

theorem AnnounceRequest.fields_inj {req req' : AnnounceRequest} (h : req.fields = req'.fields) :
    { req with sig := [] } = { req' with sig := [] } := by
  simp only [AnnounceRequest.fields, List.cons_append, List.nil_append, List.cons.injEq] at h
  rcases h with ⟨hkey, htimestamp, httl, hnonce, hmetadata, hendpoints⟩
  rw [hkey, Strconv.formatInt_injective htimestamp, Strconv.formatInt_injective httl, hnonce,
    hmetadata, hendpoints]

theorem WithdrawRequest.fields_inj {req req' : WithdrawRequest} (h : req.fields = req'.fields) :
    { req with sig := [] } = { req' with sig := [] } := by
  simp only [WithdrawRequest.fields, List.cons.injEq] at h
  rcases h with ⟨hkey, htimestamp, hnonce, _⟩
  rw [hkey, Strconv.formatInt_injective htimestamp, hnonce]

theorem DepositRequest.fields_inj {req req' : DepositRequest} (h : req.fields = req'.fields) :
    { req with sig := [] } = { req' with sig := [] } := by
  simp only [DepositRequest.fields, List.cons.injEq] at h
  rcases h with ⟨hsource, htarget, htimestamp, httl, hnonce, hpayload, _⟩
  rw [hsource, htarget, Strconv.formatInt_injective htimestamp,
    Strconv.formatInt_injective httl, hnonce, hpayload]

theorem PollRequest.fields_inj {req req' : PollRequest} (h : req.fields = req'.fields) :
    { req with sig := [], wait := 0 } = { req' with sig := [], wait := 0 } := by
  simp only [PollRequest.fields, List.cons.injEq] at h
  rcases h with ⟨hkey, htimestamp, hnonce, _⟩
  rw [hkey, Strconv.formatInt_injective htimestamp, hnonce]

theorem AckRequest.fields_inj {req req' : AckRequest} (h : req.fields = req'.fields) :
    { req with sig := [] } = { req' with sig := [] } := by
  simp only [AckRequest.fields, List.cons_append, List.nil_append, List.cons.injEq] at h
  rcases h with ⟨hkey, htimestamp, hnonce, hids⟩
  rw [hkey, Strconv.formatInt_injective htimestamp, hnonce, hids]

theorem PinRequest.fields_inj {req req' : PinRequest} (h : req.fields = req'.fields) :
    { req with sig := [] } = { req' with sig := [] } := by
  simp only [PinRequest.fields, List.cons.injEq] at h
  rcases h with ⟨hkey, htimestamp, hnonce, hkind, haddr, _⟩
  rw [hkey, Strconv.formatInt_injective htimestamp, hnonce, hkind, haddr]

namespace SignedRequest

theorem signed_eq {a b : SignedRequest} (hkind : a.kind = b.kind) (h : a.fields = b.fields) :
    a.signed = b.signed := by
  cases a with
  | announce req =>
      cases b with
      | announce req' => exact congrArg announce (AnnounceRequest.fields_inj h)
      | _ => cases hkind
  | withdraw req =>
      cases b with
      | withdraw req' => exact congrArg withdraw (WithdrawRequest.fields_inj h)
      | _ => cases hkind
  | signalDeposit req =>
      cases b with
      | signalDeposit req' => exact congrArg signalDeposit (DepositRequest.fields_inj h)
      | _ => cases hkind
  | signalPoll req =>
      cases b with
      | signalPoll req' => exact congrArg signalPoll (PollRequest.fields_inj h)
      | _ => cases hkind
  | signalAck req =>
      cases b with
      | signalAck req' => exact congrArg signalAck (AckRequest.fields_inj h)
      | _ => cases hkind
  | mailboxDeposit req =>
      cases b with
      | mailboxDeposit req' => exact congrArg mailboxDeposit (DepositRequest.fields_inj h)
      | _ => cases hkind
  | mailboxPoll req =>
      cases b with
      | mailboxPoll req' => exact congrArg mailboxPoll (PollRequest.fields_inj h)
      | _ => cases hkind
  | mailboxAck req =>
      cases b with
      | mailboxAck req' => exact congrArg mailboxAck (AckRequest.fields_inj h)
      | _ => cases hkind
  | pin req =>
      cases b with
      | pin req' => exact congrArg pin (PinRequest.fields_inj h)
      | _ => cases hkind
  | unpin req =>
      cases b with
      | unpin req' => exact congrArg unpin (PinRequest.fields_inj h)
      | _ => cases hkind

end SignedRequest

/--
A message determines its domain and its fields; and the signing messages of two requests
are equal only for requests of one kind that agree on every signed field.
-/
theorem signingMessage_unambiguous :
    (forall (domain domain' : Bytes) (fields fields' : List Bytes),
      ShortSegments domain fields -> ShortSegments domain' fields' ->
        canonicalMessage domain fields = canonicalMessage domain' fields' ->
          domain = domain' ∧ fields = fields') ∧
      forall a b : SignedRequest, (forall f, f ∈ a.fields -> f.length < 2 ^ 32) ->
        (forall f, f ∈ b.fields -> f.length < 2 ^ 32) ->
          a.signingMessage = b.signingMessage -> a.kind = b.kind ∧ a.signed = b.signed := by
  constructor
  · intro domain domain' fields fields' hshort hshort' h
    exact canonicalMessage_inj hshort hshort' h
  · intro a b ha hb h
    have hshort : forall r : SignedRequest, (forall f, f ∈ r.fields -> f.length < 2 ^ 32) ->
        ShortSegments r.kind.domain r.fields := by
      intro r hr s hs
      rcases List.mem_cons.mp hs with heq | hmem
      · rw [heq]
        exact r.kind.length_domain
      · exact hr s hmem
    rcases canonicalMessage_inj (hshort a ha) (hshort b hb) h with ⟨hdomain, hfields⟩
    have hkind := RequestKind.domain_injective hdomain
    exact ⟨hkind, SignedRequest.signed_eq hkind hfields⟩

/-- A byte that goes from one field to the next changes the message. -/
theorem moved_byte_changes_message :
    canonicalMessage [1] [[2], [3, 4]] ≠ canonicalMessage [1] [[2, 3], [4]] := by
  intro h
  have hshort : ShortSegments [1] [[2], [3, 4]] ∧ ShortSegments [1] [[2, 3], [4]] := by
    simp [ShortSegments]
  exact absurd (signingMessage_unambiguous.1 _ _ _ _ hshort.1 hshort.2 h).2 (by decide)

end Keyauth
end Ephor
