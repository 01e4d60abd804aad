import Ephor.Server.Proxy
import Mathlib.Algebra.GroupWithZero.Nat

/-!
# Metered traffic

The second half of `handlePublic` in `tunnel/server/proxy.go`, from the open stream on, with
`proxyWebSocket`, the two counting readers of `metering.go` and the splice of `splice.go`.
A request body is read through `countingReadCloser`, a response body through `meterReader`,
and so are both directions of a splice.  The answer of an application that refuses an
upgrade is written by `resp.Write`.

What the connections do is in the exchange: the chunks their reads give, and whether the
writes of what was read succeed.  The meter is seen through the calls of `addBytes`.
-/

namespace Ephor
namespace Server
namespace MeteredProxy

open Foundation
open Foundation.HttpHeader
open Foundation.GoText (lit)
open Proxy

structure Config where
  maxRequestBytes : Nat
  /-- `s.meter.enabled()`. -/
  metering : Bool

structure MeterCall where
  accountID : Bytes
  n : Nat
deriving DecidableEq

def added (accountID : Bytes) (calls : List MeterCall) : Nat :=
  ((calls.filter fun c => c.accountID = accountID).map fun c => c.n).sum

/-- The meter's share of a `Read` of `countingReadCloser` or `meterReader`. -/
def meterRead (accountID : Bytes) (data : Bytes) : List MeterCall :=
  if 0 < data.length ∧ accountID ≠ [] then [⟨accountID, data.length⟩] else []

/-!
## The request body
-/

/-- What reading the client's body gives, and whether the ingestion deadline ends it. -/
structure RequestBody where
  reads : List Bytes
  timesOut : Bool

/--
`http.MaxBytesReader` with so many bytes left: what its reads return, and whether the body
went past the limit.  It asks for one byte more than may pass and keeps that byte back.
-/
def maxBytesReader : Nat -> List Bytes -> List Bytes × Bool
  | _, [] => ([], false)
  | remaining, data :: rest =>
      let data := data.take (remaining + 1)
      if data.length <= remaining then
        let more := maxBytesReader (remaining - data.length) rest
        (data :: more.1, more.2)
      else
        ([data.take remaining], true)

/-- A body read through the cap and the counting wrapper. -/
structure Forwarded where
  calls : List MeterCall
  read : Nat
  overLimit : Bool
  timedOut : Bool

def readBody (accountID : Bytes) (limit : Nat) : Option RequestBody -> Forwarded
  | none => ⟨[], 0, false, false⟩
  | some body =>
      let capped := maxBytesReader limit body.reads
      { calls := capped.1.flatMap (meterRead accountID)
        read := (capped.1.map List.length).sum
        overLimit := capped.2
        timedOut := !capped.2 && body.timesOut }

/-!
## Copies
-/

/-- A chunk read from one side, and how many of its bytes the other side takes. -/
structure Chunk where
  data : Bytes
  taken : Nat

/-- The chunks that a copy reads: it stops at a write that falls short. -/
def copied : List Chunk -> List Chunk
  | [] => []
  | c :: rest => if c.data.length <= c.taken then c :: copied rest else [c]

/-- The bytes that a copy reads from one side. -/
def gathered (chunks : List Chunk) : Nat :=
  ((copied chunks).map fun c => c.data.length).sum

/-- The bytes that a copy writes to the other side. -/
def delivered (chunks : List Chunk) : Nat :=
  ((copied chunks).map fun c => min c.data.length c.taken).sum

/-- The calls of a copy that reads through `meterReader`. -/
def meteredCopy (accountID : Bytes) (chunks : List Chunk) : List MeterCall :=
  ((copied chunks).map Chunk.data).flatMap (meterRead accountID)

/-!
## The answer of the agent
-/

structure Response where
  statusCode : Nat
  body : List Chunk

def switchingProtocols : Nat := 101

def bodyAllowedForStatus (status : Nat) : Bool :=
  !(100 <= status && status <= 199) && status ≠ 204 && status ≠ 304

/-- `resp.Body` as `http.ReadResponse` leaves it. -/
def Response.carried (resp : Response) : List Chunk :=
  if bodyAllowedForStatus resp.statusCode then resp.body else []

structure Exchange where
  body : Option RequestBody
  forwards : Bool
  /-- The agent's response, if `http.ReadResponse` can read one. -/
  answer : Option Response
  headTaken : Bool
  fromClient : List Chunk
  fromAgent : List Chunk

inductive Reply where
  | error (status : Nat) (text : Bytes)
  | relayed (status : Nat)
  | closed

/-- What a request moved, and what the meter was told of it. -/
structure Traffic where
  reply : Reply
  calls : List MeterCall
  fromClient : Nat
  toClient : Nat

/-- The answer to a request whose body could not be forwarded. -/
def forwardError (limit : Nat) (f : Forwarded) : Reply :=
  if f.overLimit then
    .error 413 (lit ("request body too large (limit " ++ toString limit ++ " bytes)"))
  else if f.timedOut then
    .error 408 (lit "request body ingestion timed out")
  else
    .error 502 (lit "bad gateway")

def Exchange.written (x : Exchange) (f : Forwarded) : Bool :=
  x.forwards && !f.overLimit && !f.timedOut

/-- `handlePublic` after the test for an upgrade. -/
def relayPlain (cfg : Config) (meterAccount : Bytes) (x : Exchange) : Traffic :=
  let f := readBody meterAccount cfg.maxRequestBytes x.body
  if !x.written f then
    ⟨forwardError cfg.maxRequestBytes f, f.calls, f.read, 0⟩
  else
    match x.answer with
    | none => ⟨.error 502 (lit "bad gateway"), f.calls, f.read, 0⟩
    | some resp =>
        { reply := .relayed resp.statusCode
          calls := f.calls ++ meteredCopy meterAccount resp.carried
          fromClient := f.read
          toClient := delivered resp.carried }

/-- `proxyWebSocket` once the client's connection is taken over. -/
def relayUpgrade (cfg : Config) (meterAccount : Bytes) (x : Exchange) : Traffic :=
  let f := readBody meterAccount cfg.maxRequestBytes x.body
  if !x.written f then
    ⟨.closed, f.calls, f.read, 0⟩
  else
    match x.answer with
    | none => ⟨.error 502 [], f.calls, f.read, 0⟩
    | some resp =>
        if !x.headTaken then
          ⟨.closed, f.calls, f.read, 0⟩
        else if resp.statusCode ≠ switchingProtocols then
          -- `resp.Write` copies the body without a `meterReader`.
          ⟨.relayed resp.statusCode, f.calls, f.read, delivered resp.carried⟩
        else
          { reply := .relayed resp.statusCode
            calls := f.calls ++ meteredCopy meterAccount x.fromClient ++
              meteredCopy meterAccount x.fromAgent
            fromClient := f.read + gathered x.fromClient
            toClient := delivered x.fromAgent }

/-- `handlePublic` with the traffic of a request that comes to an open stream. -/
def serve (s : Relay) (cfg : Config) (r : Inbound) (x : Exchange) :
    Except Stopped (Session × Traffic) := do
  let opened <- openStream s r
  let meterAccount := if cfg.metering then opened.1.accountID else []
  if isWebSocketUpgrade r.header then
    let _ <- proxyWebSocket s (outReq s r opened.2)
    return (opened.1, relayUpgrade cfg meterAccount x)
  else
    return (opened.1, relayPlain cfg meterAccount x)

/-!
## What the meter is told
-/

section Totals

variable {accountID : Bytes}

theorem added_append (calls more : List MeterCall) :
    added accountID (calls ++ more) = added accountID calls + added accountID more := by
  simp [added]

theorem added_meterRead (h : accountID ≠ []) (data : Bytes) :
    added accountID (meterRead accountID data) = data.length := by
  by_cases hdata : 0 < data.length
  · rw [meterRead, if_pos ⟨hdata, h⟩]
    simp [added]
  · rw [meterRead, if_neg (fun hboth => hdata hboth.1)]
    exact (Nat.eq_zero_of_not_pos hdata).symm

theorem added_flatMap_meterRead (h : accountID ≠ []) (reads : List Bytes) :
    added accountID (reads.flatMap (meterRead accountID)) = (reads.map List.length).sum := by
  induction reads with
  | nil => rfl
  | cons data rest ih =>
      rw [List.flatMap_cons, added_append, added_meterRead h, ih, List.map_cons, List.sum_cons]

theorem added_readBody (h : accountID ≠ []) (limit : Nat) (body : Option RequestBody) :
    added accountID (readBody accountID limit body).calls =
      (readBody accountID limit body).read := by
  cases body with
  | none => rfl
  | some body => exact added_flatMap_meterRead h _

theorem added_meteredCopy (h : accountID ≠ []) (chunks : List Chunk) :
    added accountID (meteredCopy accountID chunks) = gathered chunks := by
  rw [meteredCopy, added_flatMap_meterRead h, List.map_map]
  rfl

end Totals

/-!
## What the client takes
-/

/-- Each chunk is taken whole. -/
def AllTaken (chunks : List Chunk) : Prop :=
  forall c, c ∈ chunks -> c.data.length <= c.taken

/-- A byte of the first chunk that holds any is taken. -/
def TakesFirst : List Chunk -> Prop
  | [] => False
  | c :: rest => if c.data = [] then TakesFirst rest else 0 < c.taken

theorem gathered_eq_delivered_iff (chunks : List Chunk) :
    gathered chunks = delivered chunks <-> AllTaken chunks := by
  induction chunks with
  | nil => exact iff_of_true rfl (List.forall_mem_nil _)
  | cons c rest ih =>
      rw [AllTaken, List.forall_mem_cons]
      by_cases hwhole : c.data.length <= c.taken
      · simp only [gathered, delivered, copied, if_pos hwhole, List.map_cons, List.sum_cons,
          Nat.min_eq_left hwhole, Nat.add_left_cancel_iff]
        exact ih.trans (and_iff_right hwhole).symm
      · simp only [gathered, delivered, copied, if_neg hwhole, List.map_cons, List.map_nil,
          List.sum_cons, List.sum_nil]
        omega

theorem delivered_eq_zero_iff (chunks : List Chunk) :
    delivered chunks = 0 <-> Not (TakesFirst chunks) := by
  induction chunks with
  | nil => exact iff_of_true rfl id
  | cons c rest ih =>
      by_cases hempty : c.data = []
      · rw [TakesFirst, if_pos hempty, <- ih]
        simp [delivered, copied, hempty]
      · have hlength := List.length_pos_of_ne_nil hempty
        rw [TakesFirst, if_neg hempty, delivered, copied]
        split
        · rw [List.map_cons, List.sum_cons]
          omega
        · rw [List.map_cons, List.map_nil, List.sum_cons, List.sum_nil]
          omega

/-!
## No byte unmetered
-/

/-- The bytes added to the account's meter are those read from the client and those read
from the agent and written to the client. -/
def Metered (accountID : Bytes) (t : Traffic) : Prop :=
  added accountID t.calls = t.fromClient + t.toClient

/-- The client takes all that is read for it, and none of the body with which the application
refuses an upgrade. -/
def RelaysMetered (r : Inbound) (x : Exchange) (resp : Response) : Prop :=
  if isWebSocketUpgrade r.header = true then
    x.headTaken = true ->
      if resp.statusCode = switchingProtocols then AllTaken x.fromAgent
      else Not (TakesFirst resp.carried)
  else
    AllTaken resp.carried

theorem written_readBody (x : Exchange) (accountID : Bytes) (limit : Nat)
    (body : Option RequestBody) :
    x.written (readBody accountID limit body) = x.written (readBody [] limit body) := by
  cases body <;> rfl

section Paths

variable {accountID : Bytes} (h : accountID ≠ []) (cfg : Config) (x : Exchange)

include h

theorem metered_body_iff (reply : Reply) (n : Nat) :
    Metered accountID ⟨reply, (readBody accountID cfg.maxRequestBytes x.body).calls,
      (readBody accountID cfg.maxRequestBytes x.body).read, n⟩ <-> n = 0 := by
  rw [Metered, added_readBody h]
  exact Nat.left_eq_add

theorem metered_relayPlain_iff {r : Inbound} (hplain : Not (isWebSocketUpgrade r.header = true)) :
    Metered accountID (relayPlain cfg accountID x) <->
      (x.written (readBody [] cfg.maxRequestBytes x.body) = true ->
        forall resp, x.answer = some resp -> RelaysMetered r x resp) := by
  unfold relayPlain
  simp only [RelaysMetered, if_neg hplain, written_readBody]
  cases x.written (readBody [] cfg.maxRequestBytes x.body) with
  | false => simpa using (metered_body_iff h cfg x _ 0).mpr rfl
  | true =>
      cases x.answer with
      | none => simpa using (metered_body_iff h cfg x _ 0).mpr rfl
      | some resp =>
          simp [Metered, added_append, added_readBody h, added_meteredCopy h,
            gathered_eq_delivered_iff]

theorem metered_relayUpgrade_iff {r : Inbound} (hupgrade : isWebSocketUpgrade r.header = true) :
    Metered accountID (relayUpgrade cfg accountID x) <->
      (x.written (readBody [] cfg.maxRequestBytes x.body) = true ->
        forall resp, x.answer = some resp -> RelaysMetered r x resp) := by
  unfold relayUpgrade
  simp only [RelaysMetered, if_pos hupgrade, written_readBody]
  cases x.written (readBody [] cfg.maxRequestBytes x.body) with
  | false => simpa using (metered_body_iff h cfg x _ 0).mpr rfl
  | true =>
      cases x.answer with
      | none => simpa using (metered_body_iff h cfg x _ 0).mpr rfl
      | some resp =>
          cases x.headTaken with
          | false => simpa using (metered_body_iff h cfg x _ 0).mpr rfl
          | true =>
              by_cases hstatus : resp.statusCode = switchingProtocols
              · simp [hstatus, Metered, added_append, added_readBody h, added_meteredCopy h,
                  Nat.add_assoc, gathered_eq_delivered_iff]
              · simp [hstatus, metered_body_iff h, delivered_eq_zero_iff]

end Paths

/-- With metering enabled, a request of a billed session is metered exactly if no response
that is relayed to it escapes the meter. -/
theorem metered_iff {s : Relay} {cfg : Config} {r : Inbound} {x : Exchange} {sess : Session}
    {t : Traffic} (hmetering : cfg.metering = true) (haccount : sess.accountID ≠ [])
    (hserved : serve s cfg r x = .ok (sess, t)) :
    Metered sess.accountID t <->
      (x.written (readBody [] cfg.maxRequestBytes x.body) = true ->
        forall resp, x.answer = some resp -> RelaysMetered r x resp) := by
  rcases bind_eq_ok.mp hserved with ⟨opened, -, hserved⟩
  simp only [hmetering, if_true] at hserved
  by_cases hupgrade : isWebSocketUpgrade r.header = true
  · rw [if_pos hupgrade] at hserved
    rcases bind_eq_ok.mp hserved with ⟨_, -, hserved⟩
    cases hserved
    exact metered_relayUpgrade_iff haccount cfg x hupgrade
  · rw [if_neg hupgrade] at hserved
    cases hserved
    exact metered_relayPlain_iff haccount cfg x hupgrade

/-!
The same five bytes, once as the response to a plain request and once as the answer 200 to an
upgrade.
-/

def billedRelay : Relay :=
  { openRelay with lookup := fun name => some ⟨name, lit "acct"⟩ }

def billedSession : Session := ⟨lit "box", lit "acct"⟩

def sampleConfig : Config := ⟨1024, true⟩

/-- A request for the tunnel `box`. -/
def requestWith (header : Header) : Inbound where
  method := lit "GET"
  path := lit "/"
  host := lit "box.relay.example"
  header := header
  remoteAddr := lit "203.0.113.7:4711"
  tls := true

def plainHeader : Header :=
  read [(lit "Accept", lit "*/*")]

def upgradeHeader : Header :=
  read [(lit "Connection", lit "Upgrade"), (lit "Upgrade", lit "websocket")]

def fiveBytes : Exchange where
  body := some ⟨[], false⟩
  forwards := true
  answer := some ⟨200, [⟨lit "hello", 5⟩]⟩
  headTaken := true
  fromClient := []
  fromAgent := []

theorem openStream_requestWith (header : Header) :
    openStream billedRelay (requestWith header) = .ok (billedSession, lit "/") := by
  have hhealth : lit "/" ≠ lit "/healthz" := by decide +kernel
  have hresolve : lit "/" ≠ lit "/_vulos-direct/resolve" := by decide +kernel
  have hnotify : lit "/" ≠ lit "/api/s2s/notify" := by decide +kernel
  have hrouted : route billedRelay (requestWith ∅) = some (lit "box", lit "/") := by
    decide +kernel
  apply openStream_eq_ok.mpr
  exact
    ⟨lit "box",
      { notHealth := hhealth
        notResolve := hresolve
        notNotify := hnotify
        notRendezvous := rfl
        notPubcache := rfl
        routed := hrouted
        global := rfl
        perTunnel := rfl
        online := rfl
        entitled := rfl
        slot := rfl
        opened := rfl }⟩

theorem serve_plain : serve billedRelay sampleConfig (requestWith plainHeader) fiveBytes =
    .ok (billedSession, relayPlain sampleConfig (lit "acct") fiveBytes) := by
  have hplain : isWebSocketUpgrade (requestWith plainHeader).header = false := by decide +kernel
  apply bind_eq_ok.mpr ⟨_, openStream_requestWith plainHeader, _⟩
  simp only [hplain]
  rfl

theorem serve_upgrade : serve billedRelay sampleConfig (requestWith upgradeHeader) fiveBytes =
    .ok (billedSession, relayUpgrade sampleConfig (lit "acct") fiveBytes) := by
  have hupgrade : isWebSocketUpgrade (requestWith upgradeHeader).header = true := by
    decide +kernel
  apply bind_eq_ok.mpr ⟨_, openStream_requestWith upgradeHeader, _⟩
  simp only [hupgrade, if_true]
  exact bind_eq_ok.mpr ⟨_, proxyWebSocket_eq_ok.mpr ⟨rfl, rfl, rfl⟩, rfl⟩

theorem plain_response_metered :
    (relayPlain sampleConfig (lit "acct") fiveBytes).toClient = 5 ∧
      Metered billedSession.accountID (relayPlain sampleConfig (lit "acct") fiveBytes) := by
  have haccount : billedSession.accountID ≠ [] := by decide +kernel
  have hplain : Not (isWebSocketUpgrade (requestWith plainHeader).header = true) := by
    decide +kernel
  refine ⟨by decide +kernel, (metered_iff rfl haccount serve_plain).mpr ?_⟩
  intro _ resp hresp
  cases hresp
  rw [RelaysMetered, if_neg hplain]
  exact List.forall_mem_singleton.mpr (by decide +kernel)

/-- The application answers an upgrade with 200 and five bytes: they reach the client, and
the meter of the account is told of none. -/
theorem refused_upgrade_unmetered :
    exists t, serve billedRelay sampleConfig (requestWith upgradeHeader) fiveBytes =
        .ok (billedSession, t) ∧
      t.toClient = 5 ∧ added billedSession.accountID t.calls = 0 ∧
      Not (Metered billedSession.accountID t) :=
  ⟨_, serve_upgrade, by decide +kernel, by decide +kernel, by unfold Metered; decide +kernel⟩

end MeteredProxy
end Server
end Ephor
