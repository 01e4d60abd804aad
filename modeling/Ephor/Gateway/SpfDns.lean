import Ephor.Gateway.DnsQuery
import Ephor.Gateway.SpfFailure

/-!
# SPF over UDP

`DnsSpfResolver` of `pier-gateway/src/spf.rs`: each lookup is one query of `UdpDnsClient`, and
every error of the query is the same error of the lookup.  The network is what the system gives
each query, which may depend on the calls before it.
-/

namespace Ephor
namespace Gateway
namespace Spf

open Foundation
open Foundation.CompressedName
open Dns
open Outbound (Libraries)

variable (L : Libraries)

/-- `map_err(|_| ())`. -/
def withoutReason {α : Type} (x : Except QueryError α) : Except Unit α :=
  x.mapError fun _ => ()

def ofType (rtype : UInt16) (msg : DnsMessage) : List ResourceRecord :=
  msg.answers.filter fun rr => rr.rtype == rtype

def dnsSpfResolver (net : List Query -> Attempt) : SpfResolver where
  lookupTxt calls name := do
    let msg ← withoutReason (query L (net calls) name typeTxt)
    Except.ok ((ofType typeTxt msg).map parseTxtRdata)
  lookupA calls name := do
    let msg ← withoutReason (query L (net calls) name typeA)
    Except.ok ((ofType typeA msg).filterMap parseARdata)
  lookupAaaa calls name := do
    let msg ← withoutReason (query L (net calls) name typeAaaa)
    Except.ok ((ofType typeAaaa msg).filterMap parseAaaaRdata)
  lookupMx calls name := do
    let (packet, msg) ← withoutReason (queryRaw L (net calls) name typeMx)
    Except.ok ((ofType typeMx msg).filterMap fun rr =>
      (parseMxRdata packet rr).toOption.map Prod.snd)

def Query.question : Query -> Str × UInt16
  | Query.txt name => (name, typeTxt)
  | Query.a name => (name, typeA)
  | Query.aaaa name => (name, typeAaaa)
  | Query.mx name => (name, typeMx)

def Replied (net : List Query -> Attempt) (calls : List Query) (q : Query) (packet : Bytes) :
    Prop :=
  exists sent, Delivered L (net calls) q.question.1 q.question.2 sent packet

/-- The reply's code is neither NOERROR nor NXDOMAIN. -/
def ServerFailure (packet : Bytes) : Prop :=
  exists header : Header, 12 <= packet.length ∧ StandsAt packet 0 header.encode ∧
    header.rcode ≠ 0 ∧ header.rcode ≠ 3

def QuestionsReadable (packet : Bytes) : Prop :=
  exists header stop, QuestionSection packet header stop

/-!
# One lookup
-/

theorem bind_pure_eq_error {ε α β : Type} {x : Except ε α} {f : α -> β} {e : ε} :
    (x >>= fun a => Except.ok (f a)) = Except.error e <-> x = Except.error e := by
  cases x <;> simp [bind, Except.bind]

theorem withoutReason_eq_error {α : Type} {x : Except QueryError α} :
    withoutReason x = Except.error () <-> forall a, x ≠ Except.ok a := by
  cases x <;> simp [withoutReason, Except.mapError]

variable {L}

theorem failed_iff {net : List Query -> Attempt} {calls : List Query} {q : Query} :
    Failed (dnsSpfResolver L net) calls q <->
      forall answer, queryRaw L (net calls) q.question.1 q.question.2 ≠ Except.ok answer := by
  have hquery : forall name qtype, (forall msg, query L (net calls) name qtype ≠ Except.ok msg) <->
      forall answer, queryRaw L (net calls) name qtype ≠ Except.ok answer := by
    intro name qtype
    rw [query]
    cases queryRaw L (net calls) name qtype <;> simp [Except.map]
  cases q with
  | txt name =>
      rw [Failed, dnsSpfResolver, bind_pure_eq_error, withoutReason_eq_error]
      exact hquery name typeTxt
  | a name =>
      rw [Failed, dnsSpfResolver, bind_pure_eq_error, withoutReason_eq_error]
      exact hquery name typeA
  | aaaa name =>
      rw [Failed, dnsSpfResolver, bind_pure_eq_error, withoutReason_eq_error]
      exact hquery name typeAaaa
  | mx name =>
      rw [Failed, dnsSpfResolver, bind_pure_eq_error, withoutReason_eq_error]
      rfl

theorem toBeBytes_inj {v w : UInt16} (h : toBeBytes v = toBeBytes w) : v = w := by
  have hnat := congrArg CanonicalCbor.ofBigEndian h
  rw [toBeBytes, toBeBytes, CanonicalCbor.ofBigEndian_bigEndian v.toNat_lt,
    CanonicalCbor.ofBigEndian_bigEndian w.toNat_lt] at hnat
  exact UInt16.toNat_inj.mp hnat

theorem standsAt_toBeBytes_inj {packet : Bytes} {pos : Nat} {v w : UInt16}
    (hv : StandsAt packet pos (toBeBytes v)) (hw : StandsAt packet pos (toBeBytes w)) : v = w := by
  rw [standsAt_iff_take, length_toBeBytes] at hv hw
  exact toBeBytes_inj (hv.symm.trans hw)

theorem readable_of_serverFailure {packet : Bytes} (h : ServerFailure packet) :
    Readable packet <-> QuestionsReadable packet := by
  rcases h with ⟨header, -, hhead, hrcode, -⟩
  constructor
  · intro hreadable
    rcases hreadable with ⟨header, stop, answers, hsection, -⟩
    exact ⟨header, stop, hsection⟩
  · intro hreadable
    rcases hreadable with ⟨header', stop, hsection⟩
    have hflags := standsAt_toBeBytes_inj (standsAt_header.mp hhead).2.1
      (standsAt_header.mp hsection.head).2.1
    refine ⟨header', stop, [], hsection, ?_⟩
    have hfailed : header'.rcode ≠ 0 := by
      rwa [Header.rcode, <- hflags]
    rw [AnswersOf, if_pos hfailed]

theorem failed_iff_unreadable {net : List Query -> Attempt} {calls : List Query} {q : Query}
    {packet : Bytes} (hreplied : Replied L net calls q packet) (hfailure : ServerFailure packet) :
    Failed (dnsSpfResolver L net) calls q <-> ¬ QuestionsReadable packet := by
  rcases hreplied with ⟨sent, hdelivered⟩
  rw [failed_iff, <- readable_of_serverFailure hfailure, readable_iff]
  constructor
  · intro hnone hreadable
    rcases hreadable with ⟨msg, hmsg⟩
    exact hnone (packet, msg) (queryRaw_eq_ok.mpr ⟨⟨sent, hdelivered⟩, hmsg⟩)
  · intro hunreadable answer hanswer
    rcases queryRaw_eq_ok.mp hanswer with ⟨⟨sent', hdelivered'⟩, hmsg⟩
    rw [<- (delivered_unique hdelivered hdelivered').2] at hmsg
    exact hunreadable ⟨answer.2, hmsg⟩

/-!
# A whole evaluation
-/

structure ToldOfFailure (L : Libraries) (net : List Query -> Attempt) (ip : IpAddr)
    (domain sender : Str) (calls : List Query) (q : Query) (packet : Bytes) : Prop where
  asked : Asked (checkHostRun (dnsSpfResolver L net) ip domain sender).2.calls calls q
  replied : Replied L net calls q packet
  failure : ServerFailure packet

/-- Every failure of a server is an error of its lookup, and the evaluation ends in a temporary
error. -/
def FailsTemporarily (L : Libraries) (net : List Query -> Attempt) (ip : IpAddr)
    (domain sender : Str) : Prop :=
  forall calls q packet, ToldOfFailure L net ip domain sender calls q packet ->
    Failed (dnsSpfResolver L net) calls q ∧
      checkHost (dnsSpfResolver L net) ip domain sender = SpfResult.tempError

/-- A failure of a server counts as one when the reply's own questions cannot be read, and only
then. -/
theorem server_failure (L : Libraries) (net : List Query -> Attempt) (ip : IpAddr)
    (domain sender : Str) :
    FailsTemporarily L net ip domain sender <->
      forall calls q packet, ToldOfFailure L net ip domain sender calls q packet ->
        ¬ QuestionsReadable packet := by
  constructor
  · intro h calls q packet htold
    exact (failed_iff_unreadable htold.replied htold.failure).mp (h calls q packet htold).1
  · intro h calls q packet htold
    have hfailed := (failed_iff_unreadable htold.replied htold.failure).mpr (h calls q packet htold)
    exact ⟨hfailed, checkHost_of_failed htold.asked hfailed⟩

/-!
A server that answers each query with SERVFAIL and no question: the evaluation finds no record.
-/

def servfailReply : Bytes :=
  [0x12, 0x34, 0x81, 0x82, 0, 0, 0, 0, 0, 0, 0, 0]

def servfailNetwork (_ : List Query) : Attempt where
  random := zeroReply.random
  recv _ := Except.ok servfailReply

/-- A reply that announces a question and has none is an error of the lookup. -/
theorem cut_servfail_fails :
    FailsTemporarily hostLibraries
      (fun _ => { zeroReply with recv := fun _ => Except.ok (servfailReply.set 5 1) })
      (IpAddr.v4 0) "example.com".toList [] := by
  apply (server_failure _ _ _ _ _).mpr
  rintro calls q packet ⟨_, ⟨_, _, _, _, _, _, _, hrecv, hpacket⟩, hfailure⟩ hquestions
  cases hrecv
  rcases readable_iff.mp ((readable_of_serverFailure hfailure).mpr hquestions) with ⟨msg, hmsg⟩
  have herror : (parseResponse ((servfailReply.set 5 1).take recvBuffer)).isOk = false := by
    decide +kernel
  rw [<- hpacket, hmsg] at herror
  cases herror

theorem servfail_is_no_record :
    ¬ forall L net ip domain sender, FailsTemporarily L net ip domain sender := by
  intro h
  have hrun : checkHostRun (dnsSpfResolver hostLibraries servfailNetwork) (IpAddr.v4 0)
      "example.com".toList [] =
        (SpfResult.none, ⟨0, 0, [], [Query.txt "example.com".toList], 0⟩) := by
    decide +kernel
  have hreplied : Replied hostLibraries servfailNetwork [] (Query.txt "example.com".toList)
      servfailReply :=
    ⟨_, "example.com".toList, 0x1234, servfailReply, by decide +kernel, by decide +kernel, rfl,
      rfl, rfl⟩
  have hfailure : ServerFailure servfailReply :=
    ⟨⟨0x1234, 0x8182, 0, 0⟩, by decide, standsAt_iff_take.mpr (by decide +kernel),
      by decide, by decide⟩
  have htold : ToldOfFailure hostLibraries servfailNetwork (IpAddr.v4 0) "example.com".toList []
      [] (Query.txt "example.com".toList) servfailReply := by
    refine ⟨?_, hreplied, hfailure⟩
    rw [hrun]
    exact List.prefix_rfl
  have htemp := (h _ _ _ _ _ _ _ _ htold).2
  rw [checkHost, hrun] at htemp
  cases htemp

end Spf
end Gateway
end Ephor
