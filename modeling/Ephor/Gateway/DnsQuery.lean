import Ephor.Gateway.DnsResponses
import Ephor.Gateway.Outbound

/-!
# Queries over UDP

`UdpDnsClient` of `pier-gateway/src/dns.rs`.  What the system gives one query is an input: the
random bytes of the transaction id, and the datagram that the connected socket delivers after
the query was sent.
-/

namespace Ephor
namespace Gateway
namespace Dns

open Foundation
open Foundation.CompressedName
open Foundation.Text
open Outbound (Libraries IdnError domainToAscii)

inductive QueryError where
  | invalidInput (e : IdnError)
  | system (reason : Str)
  | invalidData (e : DnsError)
deriving DecidableEq

structure Attempt where
  /-- `getrandom`. -/
  random : Except Str (FixedBytes 2)
  recv : Bytes -> Except Str Bytes

/-- The size of the buffer of `recv`; what does not fit is cut off. -/
def recvBuffer : Nat := 4096

def randomTxnId (a : Attempt) : Except Str UInt16 :=
  a.random.map fun b => UInt16.ofNat (CanonicalCbor.ofBigEndian b.toBytes)

variable (L : Libraries)

def queryRaw (a : Attempt) (qname : Str) (qtype : UInt16) :
    Except QueryError (Bytes × DnsMessage) := do
  let qname ← (domainToAscii L qname).mapError QueryError.invalidInput
  let id ← (randomTxnId a).mapError QueryError.system
  let datagram ← (a.recv (encodeQuery id qname qtype)).mapError QueryError.system
  let packet := datagram.take recvBuffer
  let msg ← (parseResponse packet).mapError QueryError.invalidData
  Except.ok (packet, msg)

def query (a : Attempt) (qname : Str) (qtype : UInt16) : Except QueryError DnsMessage :=
  (queryRaw L a qname qtype).map Prod.snd

/-!
# What is delivered
-/

def Delivered (a : Attempt) (qname : Str) (qtype : UInt16) (sent packet : Bytes) : Prop :=
  exists ascii id datagram, domainToAscii L qname = Except.ok ascii ∧
    randomTxnId a = Except.ok id ∧ sent = encodeQuery id ascii qtype ∧
    a.recv sent = Except.ok datagram ∧ packet = datagram.take recvBuffer

variable {L}

theorem queryRaw_eq_ok {a : Attempt} {qname : Str} {qtype : UInt16} {packet : Bytes}
    {msg : DnsMessage} :
    queryRaw L a qname qtype = Except.ok (packet, msg) <->
      (exists sent, Delivered L a qname qtype sent packet) ∧
        parseResponse packet = Except.ok msg := by
  constructor
  · intro h
    rw [queryRaw] at h
    rcases bind_eq_ok.mp h with ⟨ascii, hascii, h⟩
    rcases bind_eq_ok.mp h with ⟨id, hid, h⟩
    rcases bind_eq_ok.mp h with ⟨datagram, hrecv, h⟩
    rcases bind_eq_ok.mp h with ⟨parsed, hparse, h⟩
    rw [mapError_eq_ok] at hascii hid hrecv hparse
    cases h
    exact ⟨⟨_, ascii, id, datagram, hascii, hid, rfl, hrecv, rfl⟩, hparse⟩
  · intro h
    rcases h with ⟨⟨sent, ascii, id, datagram, hascii, hid, hsent, hrecv, hpacket⟩, hparse⟩
    rw [hsent] at hrecv
    rw [hpacket] at hparse ⊢
    rw [queryRaw, mapError_eq_ok.mpr hascii, mapError_eq_ok.mpr hid]
    simp only [bind, Except.bind]
    rw [mapError_eq_ok.mpr hrecv]
    dsimp only
    rw [mapError_eq_ok.mpr hparse]

theorem delivered_unique {a : Attempt} {qname : Str} {qtype : UInt16}
    {sent sent' packet packet' : Bytes} (h : Delivered L a qname qtype sent packet)
    (h' : Delivered L a qname qtype sent' packet') : sent = sent' ∧ packet = packet' := by
  rcases h with ⟨ascii, id, datagram, hascii, hid, hsent, hrecv, hpacket⟩
  rcases h' with ⟨ascii', id', datagram', hascii', hid', hsent', hrecv', hpacket'⟩
  cases Except.ok.inj (hascii.symm.trans hascii')
  cases Except.ok.inj (hid.symm.trans hid')
  cases hsent.trans hsent'.symm
  cases Except.ok.inj (hrecv.symm.trans hrecv')
  exact ⟨rfl, hpacket.trans hpacket'.symm⟩

/-!
# Forged answers
-/

/-- The packet's first question. -/
def Asks (packet : Bytes) (name : Str) (qtype : UInt16) : Prop :=
  exists next, readName packet 12 = Except.ok (name, next) ∧
    StandsAt packet next (toBeBytes qtype ++ toBeBytes classIn)

/-- The packet answers the query: its id, its response bit and its only question say so. -/
structure AnswersQuery (sent packet : Bytes) : Prop where
  id : exists id, StandsAt sent 0 (toBeBytes id) ∧ StandsAt packet 0 (toBeBytes id)
  response : exists flags, StandsAt packet 2 (toBeBytes flags) ∧ flags &&& 0x8000 ≠ 0
  single : StandsAt packet 4 (toBeBytes 1)
  question : exists asked echoed qtype, Asks sent asked qtype ∧ Asks packet echoed qtype ∧
    eqIgnoreCase echoed asked = true

/-- Header, questions and, after a success, all answers can be read. -/
def Readable (packet : Bytes) : Prop :=
  exists header stop answers, QuestionSection packet header stop ∧
    AnswersOf packet header stop answers

theorem readable_iff {packet : Bytes} :
    Readable packet <-> exists msg, parseResponse packet = Except.ok msg := by
  constructor
  · intro h
    rcases h with ⟨header, stop, answers, hsection, hanswers⟩
    exact ⟨⟨header.id, header.rcode, answers⟩,
      parseResponse_eq_ok.mpr ⟨header, stop, hsection, hanswers, rfl, rfl⟩⟩
  · intro h
    rcases h with ⟨msg, hmsg⟩
    rcases parseResponse_eq_ok.mp hmsg with ⟨header, stop, hsection, hanswers, -⟩
    exact ⟨header, stop, msg.answers, hsection, hanswers⟩

/-- Whatever `query_raw` returns answers the query that was sent. -/
def IgnoresForged (L : Libraries) (a : Attempt) (qname : Str) (qtype : UInt16) : Prop :=
  forall packet msg, queryRaw L a qname qtype = Except.ok (packet, msg) ->
    exists sent, Delivered L a qname qtype sent packet ∧ AnswersQuery sent packet

/-- Nothing of the packet is compared with the query: a forged answer is ignored exactly when it
cannot be read. -/
theorem forged_answers (L : Libraries) (a : Attempt) (qname : Str) (qtype : UInt16) :
    IgnoresForged L a qname qtype <->
      forall sent packet, Delivered L a qname qtype sent packet -> Readable packet ->
        AnswersQuery sent packet := by
  constructor
  · intro h sent packet hdelivered hreadable
    rcases readable_iff.mp hreadable with ⟨msg, hmsg⟩
    rcases h packet msg (queryRaw_eq_ok.mpr ⟨⟨sent, hdelivered⟩, hmsg⟩) with
      ⟨sent', hdelivered', hanswers⟩
    cases (delivered_unique hdelivered hdelivered').1
    exact hanswers
  · intro h packet msg hquery
    rcases queryRaw_eq_ok.mp hquery with ⟨⟨sent, hdelivered⟩, hmsg⟩
    exact ⟨sent, hdelivered, h sent packet hdelivered (readable_iff.mpr ⟨msg, hmsg⟩)⟩

/-!
A query that is answered by twelve zero bytes: neither the id nor the response bit is right.
-/

def hostLibraries : Libraries where
  domainToAsciiCow domain := Except.ok (lower domain)
  encodeDisplayName name := name
  encodeHeaderValue value := value
  formatRfc5322Date _ := []
  contentDigest _ := FixedBytes.zero 32

def zeroReply : Attempt where
  random := Except.ok ⟨[0x12, 0x34], rfl⟩
  recv _ := Except.ok (List.replicate 12 0)

theorem empty_reply_is_ignored :
    IgnoresForged hostLibraries { zeroReply with recv := fun _ => Except.ok [] }
      "example.com".toList typeTxt := by
  apply (forged_answers _ _ _ _).mpr
  rintro sent packet ⟨_, _, _, _, _, _, hrecv, rfl⟩ hreadable
  cases hrecv
  rcases readable_iff.mp hreadable with ⟨msg, hmsg⟩
  cases hmsg

theorem zero_reply_is_returned :
    ¬ forall L a qname qtype, IgnoresForged L a qname qtype := by
  intro h
  have hquery : queryRaw hostLibraries zeroReply "example.com".toList typeTxt =
      Except.ok (List.replicate 12 0, ⟨0, 0, []⟩) := by
    decide +kernel
  rcases h _ _ _ _ _ _ hquery with ⟨sent, -, hanswers⟩
  rcases hanswers.response with ⟨flags, hflags, hresponse⟩
  have hzero : flags = 0 := by
    have htwo := (standsAt_iff_take.mp hflags).symm
    rw [length_toBeBytes] at htwo
    have hnat := congrArg CanonicalCbor.ofBigEndian htwo
    rw [toBeBytes, CanonicalCbor.ofBigEndian_bigEndian flags.toNat_lt] at hnat
    exact UInt16.toNat_inj.mp hnat
  rw [hzero] at hresponse
  exact hresponse (by decide)

end Dns
end Gateway
end Ephor
