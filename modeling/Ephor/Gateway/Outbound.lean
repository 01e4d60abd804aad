import Ephor.Gateway.Dkim
import Ephor.Gateway.MtaSts

/-!
# Outbound mail

`pier-gateway/src/outbound.rs` with `idn.rs`: a payload is written as an RFC 5322 message,
signed with the key that was delegated for the domain in `From`, and handed to the transport
under the TLS policy of the destination.

What other crates compute stands in `Libraries`.  The policy may ask the network, so it works
on a state of its own.
-/

namespace Ephor
namespace Gateway
namespace Outbound

open Foundation
open Foundation.Text
open Dkim (Suite DkimKey b64Encode)

/-- `idna`, `kotva_mail::mime` and `kotva_core::ContentId`. -/
structure Libraries where
  /-- `idna::domain_to_ascii_cow` with the URL deny list; its error as text. -/
  domainToAsciiCow : Str -> Except Str Str
  encodeDisplayName : Str -> Str
  encodeHeaderValue : Str -> Str
  formatRfc5322Date : UInt64 -> Str
  /-- The digest of `ContentId::of`. -/
  contentDigest : Bytes -> FixedBytes 32

/-- What `send` reads of a payload. -/
structure Payload where
  subject : Option Str
  mime : Option Str
  body : Bytes

inductive IdnError where
  | notConvertible (domain reason : Str)
  | labelTooLong (domain label : Str)
  | nameTooLong (domain : Str)
deriving DecidableEq

/-- The errors; the one about a domain keeps the reason itself, not its text. -/
inductive OutboundError where
  | notDelegated (domain : Str)
  | badFromAddress (addr : Str)
  | badDestAddress (addr : Str)
  | tlsEnforcementFailed (domain : Str)
  | noMxMatchesPolicy (domain : Str) (patterns hosts : List Str)
  | destinationRejected (code : Nat) (text : Str)
  | noMxHost (domain : Str)
  | headerInjection (field : Str)
  | idnNotConvertible (domain : Str) (reason : IdnError)
deriving DecidableEq

inductive TlsRequirement where
  | required
  | opportunistic
deriving DecidableEq

inductive TransportResult where
  | delivered (code : Nat)
  | transient (code : Nat) (text : Str)
  | permanent (code : Nat) (text : Str)
  | tlsUnavailable
deriving DecidableEq

inductive OutboundReport where
  | delivered
  | deferred (code : Nat) (text : Str)
  | failed (e : OutboundError)
deriving DecidableEq

structure MxHost where
  host : Str
  preference : Nat
deriving DecidableEq

/-- The trait `TlsPolicy`, over the state of what its lookups depend on. -/
structure TlsPolicy (σ : Type) where
  requirementFor : Str -> σ -> TlsRequirement × σ
  allowedMxPatterns : Str -> σ -> List Str × σ

structure OutboundGateway (S : Suite) (σ : Type) where
  dkimKeys : List (DkimKey S)
  tlsPolicy : TlsPolicy σ
  deliver : Str -> Bytes -> Bool -> TransportResult
  resolveMx : Str -> List MxHost

variable (L : Libraries)

/-!
# Addresses
-/

def domainToAscii (domain : Str) : Except IdnError Str :=
  match L.domainToAsciiCow domain with
  | .error reason => .error (.notConvertible domain reason)
  | .ok ascii =>
      let bare := (stripSuffix ['.'] ascii).getD ascii
      if 253 < (utf8 bare).length then
        .error (.nameTooLong domain)
      else
        match (bare.splitOn '.').find? fun label => 63 < (utf8 label).length with
        | some label => .error (.labelTooLong domain label)
        | none => .ok ascii

def convertDomain (domain : Str) : Except OutboundError Str :=
  match domainToAscii L domain with
  | .ok ascii => .ok ascii
  | .error e => .error (.idnNotConvertible domain e)

def trimMatches (c : Char) (text : Str) : Str :=
  (text.dropWhile (· == c)).rdropWhile (· == c)

def rfind (c : Char) (text : Str) : Option Nat :=
  (text.reverse.idxOf? c).map fun i => text.length - 1 - i

/-- The display name and the address of `Display Name <addr-spec>`. -/
def splitAddress (raw : Str) : Option Str × Str :=
  match raw.idxOf? '<', rfind '>' raw with
  | some l, some r =>
      if l < r then
        let name := trim (trimMatches '"' (trim (raw.take l)))
        (if name.isEmpty then none else some name, trim ((raw.take r).drop (l + 1)))
      else
        (none, raw)
  | _, _ => (none, raw)

/-- `wire_address`: the domain in its ASCII form, the local part as it is. -/
def wireAddress (addr : Str) : Except OutboundError (Option Str × Str) :=
  let (name, spec) := splitAddress (trim addr)
  match rsplitOnce '@' spec with
  | some (localPart, domain) =>
      if domain.isEmpty then
        .ok (name, spec)
      else
        (convertDomain L domain).map fun ascii => (name, localPart ++ '@' :: ascii)
  | none => .ok (name, spec)

def wireAddressField (addr : Str) : Except OutboundError Str :=
  (wireAddress L addr).map fun (name, spec) =>
    match name with
    | some n => L.encodeDisplayName n ++ " <".toList ++ spec ++ ">".toList
    | none => spec

def domainOf (addr : Str) : Option Str :=
  let a := ((trim addr).dropWhile (· == '<')).rdropWhile (· == '>')
  ((rsplitOnce '@' a).map Prod.snd).filter fun domain => !domain.isEmpty

/-!
# Rendering
-/

def noInject (field : Str) (name : String) : Except OutboundError Unit :=
  if field.any fun c => c == '\r' || c == '\n' || c == '\x00' then
    .error (.headerInjection name.toList)
  else
    .ok ()

def b64Id (body : Bytes) : Str :=
  (b64Encode ((L.contentDigest body).toBytes.take 12)).map fun c =>
    if c = '+' || c = '/' || c = '=' then '0' else c

def headerLine (name : String) (value : Str) : Bytes :=
  utf8 (name.toList ++ ": ".toList ++ value ++ "\r\n".toList)

/-- The body with a line ending if it has none. -/
def finishBody (body : Bytes) : Bytes :=
  if [0x0A] <:+ body then body else body ++ [0x0D, 0x0A]

def renderRfc5322 (payload : Payload) (fromAddr toAddr : Str) (ts : UInt64) :
    Except OutboundError Bytes := do
  noInject fromAddr "From"
  noInject toAddr "To"
  let subject := payload.subject.getD []
  noInject subject "Subject"
  let mime := payload.mime.getD "text/plain; charset=utf-8".toList
  noInject mime "Content-Type"
  let fromField <- wireAddressField L fromAddr
  let toField <- wireAddressField L toAddr
  let (_, fromSpec) <- wireAddress L fromAddr
  let mid := "<".toList ++ b64Id L payload.body ++ "@".toList ++
    (domainOf fromSpec).getD "dmtap.local".toList ++ ">".toList
  return headerLine "From" fromField ++ headerLine "To" toField ++
    headerLine "Date" (L.formatRfc5322Date ts) ++
    headerLine "Subject" (L.encodeHeaderValue subject) ++ headerLine "Message-ID" mid ++
    headerLine "MIME-Version" "1.0".toList ++ headerLine "Content-Type" mime ++
    headerLine "Content-Transfer-Encoding" "8bit".toList ++ utf8 "\r\n".toList ++
    finishBody payload.body

/-!
# Signing and sending
-/

variable {S : Suite} {σ : Type}

def dkimKeyFor (keys : List (DkimKey S)) (domain : Str) : Option (DkimKey S) :=
  keys.find? fun key => eqIgnoreCase key.domain domain

def translateAndSign (keys : List (DkimKey S)) (payload : Payload) (fromAddr toAddr : Str)
    (now : UInt64) : Except OutboundError Bytes := do
  let (_, fromSpec) <- wireAddress L fromAddr
  let fromDomain <- match domainOf fromSpec with
    | some domain => .ok domain
    | none => .error (.badFromAddress fromAddr)
  let key <- match dkimKeyFor keys fromDomain with
    | some key => .ok key
    | none => .error (.notDelegated fromDomain)
  let message <- renderRfc5322 L payload fromAddr toAddr now
  return utf8 (Dkim.sign S key message (now / 1000)) ++ message

/-- The destination in its ASCII form, or the report that there is none. -/
def destination (toAddr : Str) : Except OutboundError Str :=
  match domainOf toAddr with
  | some domain => convertDomain L domain
  | none => .error (.badDestAddress toAddr)

structure Dial where
  host : Str
  message : Bytes
  requireTls : Bool
deriving DecidableEq

/-- What `send` returns, the calls of the transport it made, and the state after it. -/
structure Sent (σ : Type) where
  report : OutboundReport
  dials : List Dial
  state : σ

def reportOf (dest : Str) : TransportResult -> OutboundReport
  | .delivered _ => .delivered
  | .transient code text => .deferred code text
  | .permanent code text => .failed (.destinationRejected code text)
  | .tlsUnavailable => .failed (.tlsEnforcementFailed dest)

/-- The candidates that the patterns allow; no pattern means no constraint. -/
def eligible (patterns : List Str) (candidates : List MxHost) : List MxHost :=
  if patterns.isEmpty then candidates
  else candidates.filter fun h => anyPatternMatches patterns h.host

/-- `send` once the message is signed and the destination known. -/
def sendTo (gw : OutboundGateway S σ) (signed : Bytes) (dest : Str) (s : σ) : Sent σ :=
  let (requirement, s) := gw.tlsPolicy.requirementFor dest s
  let (patterns, s) := gw.tlsPolicy.allowedMxPatterns dest s
  let candidates := gw.resolveMx dest
  match eligible patterns candidates with
  | h :: _ =>
      let requireTls := requirement == .required
      ⟨reportOf dest (gw.deliver h.host signed requireTls), [⟨h.host, signed, requireTls⟩], s⟩
  | [] =>
      if patterns.isEmpty then
        ⟨.failed (.noMxHost dest), [], s⟩
      else
        ⟨.failed (.noMxMatchesPolicy dest patterns (candidates.map MxHost.host)), [], s⟩

def send (gw : OutboundGateway S σ) (payload : Payload) (fromAddr toAddr : Str) (now : UInt64)
    (s : σ) : Sent σ :=
  match translateAndSign L gw.dkimKeys payload fromAddr toAddr now with
  | .error e => ⟨.failed e, [], s⟩
  | .ok signed =>
      match destination L toAddr with
      | .error e => ⟨.failed e, [], s⟩
      | .ok dest => sendTo gw signed dest s

end Outbound
end Gateway
end Ephor
