import Ephor.Agent.Forward

/-!
# Public traffic and the agent's command channel

`tunnel/server/proxy.go`: `handlePublic` takes every request from the internet, routes it
to a tunnel by its host or its path, and writes it on a stream to the agent of that
tunnel.  The same streams carry the relay's own requests: the notifications that
`forwardS2SNotify` forwards, and the command that `signalReconnect` sends in a drain.  The
agent tells a command by one header, so what `handlePublic` leaves of the client's headers
decides whether a client can command an agent.
-/

namespace Ephor
namespace Server
namespace Proxy

open Foundation
open Foundation.HttpHeader
open Foundation.GoText (lit)
open Agent (agentCommandHeader agentReasonHeader agentControlPath commandReconnect serveStream
  proxyLocal)

structure Session where
  name : Bytes
  accountID : Bytes

/-- The relay as one request finds it: its configuration, and what its limiters, its
registry, its entitlement gate and the connections answer. -/
structure Relay where
  lowerRune : Char -> Char
  domain : Bytes
  enablePathMode : Bool
  trustProxyHeaders : Bool
  /-- The prefix of the rendezvous role, when the role is enabled. -/
  rendezvous : Option Bytes
  /-- The prefix of the cache role, when the role is enabled. -/
  pubcache : Option Bytes
  agents : Nat
  globalAllows : Bool
  requestAllows : Bytes -> Bool
  lookup : Bytes -> Option Session
  allowContinue : Bytes -> Bool
  acquireStream : Session -> Bool
  opensStream : Session -> Bool
  /-- Whether the client's connection can be taken over, and whether doing so succeeds. -/
  hijacker : Bool
  hijacks : Bool

/-- What became of a public request that was written on no stream. -/
inductive Stopped where
  | answered (status : Nat) (text : Bytes)
  | directResolve
  | s2sNotify
  | rendezvous
  | pubcache
  /-- The connection could not be taken over for a WebSocket. -/
  | hijackFailed

def stopIf (stops : Bool) (why : Stopped) : Except Stopped Unit :=
  if stops then .error why else .ok ()

def orStop {α : Type} (found : Option α) (why : Stopped) : Except Stopped α :=
  match found with
  | none => .error why
  | some a => .ok a

/-!
## Routing
-/

def isNameByte (c : UInt8) : Bool :=
  (0x61 <= c && c <= 0x7A) || (0x30 <= c && c <= 0x39) || c == 0x2D

/-- The name in its canonical form, or nothing if it is not a DNS label. -/
def normalizeName (lowerRune : Char -> Char) (name : Bytes) : Bytes :=
  let name := GoText.toLower lowerRune (GoText.trimSpace name)
  if name = [] || name.length > 63 then []
  else if !name.all isNameByte then []
  else if name.head? = some 0x2D || name.getLast? = some 0x2D then []
  else name

def nameFromHost (s : Relay) (host : Bytes) : Bytes :=
  if host = [] then []
  else
    let host := ((GoText.splitHostPort host).map Prod.fst).getD host
    let host := GoText.toLower s.lowerRune (GoText.trimSuffix host (lit "."))
    let ending := lit "." ++ GoText.toLower s.lowerRune s.domain
    if !ending.isSuffixOf host then []
    else
      let label := GoText.trimSuffix host ending
      if label = [] || 0x2E ∈ label then [] else normalizeName s.lowerRune label

/-- The name and the rest of a path `/t/<name>/rest`. -/
def nameFromPath (lowerRune : Char -> Char) (p : Bytes) : Option (Bytes × Bytes) :=
  if !(lit "/t/").isPrefixOf p then none
  else
    let tail := p.drop (lit "/t/").length
    match tail.idxOf? 0x2F with
    | none =>
        let n := normalizeName lowerRune tail
        if n = [] then none else some (n, lit "/")
    | some slash =>
        let n := normalizeName lowerRune (tail.take slash)
        if n = [] then none else some (n, tail.drop slash)

/-- The tunnel's name and the path to forward. -/
def route (s : Relay) (r : Inbound) : Option (Bytes × Bytes) :=
  if nameFromHost s r.host ≠ [] then
    some (nameFromHost s r.host, r.path)
  else if s.enablePathMode then
    nameFromPath s.lowerRune r.path
  else
    none

def underPrefix (path start : Bytes) : Bool :=
  start ≠ [] && (path == start || (start ++ lit "/").isPrefixOf path)

def onApex (s : Relay) (role : Option Bytes) (r : Inbound) : Bool :=
  match role with
  | none => false
  | some start => nameFromHost s r.host == [] && underPrefix r.path start

/-!
## Headers
-/

def hopByHopHeaders : List Bytes :=
  [lit "Connection", lit "Proxy-Connection", lit "Keep-Alive", lit "Te", lit "Trailer",
    lit "Transfer-Encoding", lit "Upgrade"]

def connectionTokens (h : Header) : List Bytes :=
  (((get h (lit "Connection")).splitOn 0x2C).map GoText.trimSpace).filter (· ≠ [])

def stripHopByHop (h : Header) : Header :=
  hopByHopHeaders.foldl del ((connectionTokens h).foldl del h)

def clientIP (remoteAddr : Bytes) : Bytes :=
  let host := ((GoText.splitHostPort remoteAddr).map Prod.fst).getD []
  if host = [] then remoteAddr else host

def forwardedFor (orig : Inbound) (trustProxy : Bool) (h : Header) : Header :=
  let ip := clientIP orig.remoteAddr
  if trustProxy then
    let prior := get orig.header (lit "X-Forwarded-For")
    if prior ≠ [] then
      set h (lit "X-Forwarded-For") (prior ++ lit ", " ++ ip)
    else
      set h (lit "X-Forwarded-For") ip
  else
    set (set h (lit "X-Forwarded-For") ip) (lit "X-Real-IP") ip

def forwardedProto (orig : Inbound) (trustProxy : Bool) : Bytes :=
  if orig.tls then lit "https"
  else if trustProxy && get orig.header (lit "X-Forwarded-Proto") ≠ [] then
    get orig.header (lit "X-Forwarded-Proto")
  else lit "http"

def sanitizeRequestHeaders (out : Header) (orig : Inbound) (trustProxy : Bool) : Header :=
  let out := forwardedFor orig trustProxy (stripHopByHop out)
  let out := set out (lit "X-Forwarded-Host") orig.host
  set out (lit "X-Forwarded-Proto") (forwardedProto orig trustProxy)

def restoreUpgradeHeaders (h : Header) : Header :=
  set (set h (lit "Connection") (lit "Upgrade")) (lit "Upgrade") (lit "websocket")

/-!
## The requests written on a stream
-/

/-- The checks of `handlePublic` up to the open stream: the session and the path to
forward. -/
def openStream (s : Relay) (r : Inbound) : Except Stopped (Session × Bytes) := do
  stopIf (r.path = lit "/healthz")
    (.answered 200 (lit ("ok agents=" ++ toString s.agents ++ "\n")))
  stopIf (r.path = lit "/_vulos-direct/resolve") .directResolve
  stopIf (r.path = lit "/api/s2s/notify") .s2sNotify
  stopIf (onApex s s.rendezvous r) .rendezvous
  stopIf (onApex s s.pubcache r) .pubcache
  let routed <- orStop (route s r) (.answered 404 (lit "no such tunnel"))
  stopIf (!s.globalAllows) (.answered 429 (lit "relay busy (rate limited)"))
  stopIf (!s.requestAllows routed.1) (.answered 429 (lit "too many requests for this tunnel"))
  let sess <- orStop (s.lookup routed.1) (.answered 502 (lit "tunnel offline"))
  stopIf (!s.allowContinue sess.accountID)
    (.answered 402 (lit "relay quota exceeded or not permitted for this account"))
  stopIf (!s.acquireStream sess) (.answered 503 (lit "tunnel busy"))
  stopIf (!s.opensStream sess) (.answered 502 (lit "tunnel error"))
  return (sess, routed.2)

def proxyWebSocket (s : Relay) (out : Request) : Except Stopped Request := do
  stopIf (!s.hijacker) (.answered 500 (lit "websocket unsupported"))
  stopIf (!s.hijacks) .hijackFailed
  return { out with header := restoreUpgradeHeaders out.header }

/-- The request as the agent's local app should see it. -/
def outReq (s : Relay) (r : Inbound) (trimmedPath : Bytes) : Request where
  method := r.method
  path := trimmedPath
  host := r.host
  header := sanitizeRequestHeaders r.header r s.trustProxyHeaders

/-- The session whose agent the request is written to, and the request as written. -/
def handlePublic (s : Relay) (r : Inbound) : Except Stopped (Session × Request) := do
  let opened <- openStream s r
  if isWebSocketUpgrade r.header then
    let upgrade <- proxyWebSocket s (outReq s r opened.2)
    return (opened.1, upgrade)
  else
    return (opened.1, outReq s r opened.2)

/-- The notification that `handleS2SNotify` forwards to the agent of a session. -/
def forwardS2SNotify (sess : Session) : Request where
  method := lit "POST"
  path := lit "/api/notify/receive"
  host := sess.name
  header := set (set ∅ (lit "Content-Type") (lit "application/json"))
    (lit "X-Vulos-S2S-Notify") (lit "1")

def signalReconnect (sess : Session) (reason : Bytes) : Request where
  method := lit "POST"
  path := agentControlPath
  host := sess.name
  header :=
    let header := set ∅ agentCommandHeader commandReconnect
    let header := if reason ≠ [] then set header agentReasonHeader reason else header
    set header (lit "Connection") (lit "close")

/-!
## What the relay leaves of a client's header

Only the hop-by-hop headers, the ones `Connection` lists and the ones the relay sets
itself differ from what the client sent.
-/

/-- Whether the client's `Connection` header lists the header. -/
def ListedInConnection (h : Header) (name : Bytes) : Prop :=
  exists token, token ∈ connectionTokens h ∧ SameHeader name token

instance (h : Header) (name : Bytes) : Decidable (ListedInConnection h name) :=
  inferInstanceAs (Decidable (exists token, token ∈ connectionTokens h ∧ SameHeader name token))

def ownHeaders : List Bytes :=
  [lit "X-Forwarded-For", lit "X-Real-IP", lit "X-Forwarded-Host", lit "X-Forwarded-Proto"]

/-- The header is the client's own affair: the relay neither strips nor sets it. -/
structure EndToEnd (name : Bytes) : Prop where
  notHop : forall hop, hop ∈ hopByHopHeaders -> ¬ SameHeader name hop
  notOwn : forall own, own ∈ ownHeaders -> ¬ SameHeader name own

variable {name : Bytes} {why : Stopped} {s : Relay} {r : Inbound}

theorem get_stripHopByHop (hname : EndToEnd name) (h : Header) :
    get (stripHopByHop h) name = if ListedInConnection h name then [] else get h name := by
  have hnone : ¬ exists hop, hop ∈ hopByHopHeaders ∧ SameHeader name hop := by
    intro hexists
    rcases hexists with ⟨hop, hmem, hsame⟩
    exact hname.notHop hop hmem hsame
  rw [stripHopByHop, get_foldl_del, if_neg hnone, get_foldl_del]
  rfl

theorem get_forwardedFor (hname : EndToEnd name) (orig : Inbound) (trustProxy : Bool)
    (h : Header) : get (forwardedFor orig trustProxy h) name = get h name := by
  have hfor : ¬ SameHeader name (lit "X-Forwarded-For") :=
    hname.notOwn _ List.mem_cons_self
  have hreal : ¬ SameHeader name (lit "X-Real-IP") :=
    hname.notOwn _ (List.mem_cons_of_mem _ List.mem_cons_self)
  cases trustProxy with
  | true =>
      by_cases hprior : get orig.header (lit "X-Forwarded-For") ≠ []
      · rw [forwardedFor, if_pos rfl, if_pos hprior, get_set_other hfor]
      · rw [forwardedFor, if_pos rfl, if_neg hprior, get_set_other hfor]
  | false =>
      rw [forwardedFor, if_neg Bool.false_ne_true, get_set_other hreal, get_set_other hfor]

theorem get_sanitizeRequestHeaders (hname : EndToEnd name) (h : Header) (orig : Inbound)
    (trustProxy : Bool) :
    get (sanitizeRequestHeaders h orig trustProxy) name =
      if ListedInConnection h name then [] else get h name := by
  have hhost : ¬ SameHeader name (lit "X-Forwarded-Host") :=
    hname.notOwn _ (by simp [ownHeaders])
  have hproto : ¬ SameHeader name (lit "X-Forwarded-Proto") :=
    hname.notOwn _ (by simp [ownHeaders])
  rw [sanitizeRequestHeaders, get_set_other hproto, get_set_other hhost,
    get_forwardedFor hname, get_stripHopByHop hname]

theorem get_restoreUpgradeHeaders (hname : EndToEnd name) (h : Header) :
    get (restoreUpgradeHeaders h) name = get h name := by
  have hconnection : ¬ SameHeader name (lit "Connection") :=
    hname.notHop _ List.mem_cons_self
  have hupgrade : ¬ SameHeader name (lit "Upgrade") :=
    hname.notHop _ (by simp [hopByHopHeaders])
  rw [restoreUpgradeHeaders, get_set_other hupgrade, get_set_other hconnection]

/-!
## Which requests reach a stream
-/

theorem stopIf_eq_ok {stops : Bool} {u : Unit} : stopIf stops why = .ok u <-> stops = false := by
  cases stops <;> simp [stopIf]

theorem stopIf_not_eq_ok {passes : Bool} {u : Unit} :
    stopIf (!passes) why = .ok u <-> passes = true := by
  rw [stopIf_eq_ok, Bool.not_eq_false']

theorem stopIf_decide_eq_ok {p : Prop} [Decidable p] {u : Unit} :
    stopIf (decide p) why = .ok u <-> ¬ p := by
  rw [stopIf_eq_ok, decide_eq_false_iff_not]

theorem orStop_eq_ok {α : Type} {found : Option α} {a : α} :
    orStop found why = .ok a <-> found = some a := by
  cases found <;> simp [orStop]

/-- The request comes to an open stream: no route of the relay's own takes it, a tunnel's
name does, and the limiters, the registry, the gate and the connection let it through. -/
structure Opens (s : Relay) (r : Inbound) (name path : Bytes) (sess : Session) : Prop where
  notHealth : r.path ≠ lit "/healthz"
  notResolve : r.path ≠ lit "/_vulos-direct/resolve"
  notNotify : r.path ≠ lit "/api/s2s/notify"
  notRendezvous : onApex s s.rendezvous r = false
  notPubcache : onApex s s.pubcache r = false
  routed : route s r = some (name, path)
  global : s.globalAllows = true
  perTunnel : s.requestAllows name = true
  online : s.lookup name = some sess
  entitled : s.allowContinue sess.accountID = true
  slot : s.acquireStream sess = true
  opened : s.opensStream sess = true

theorem openStream_eq_ok {path : Bytes} {sess : Session} :
    openStream s r = .ok (sess, path) <-> exists name, Opens s r name path sess := by
  constructor
  · intro h
    rcases bind_eq_ok.mp h with ⟨_, hhealth, h⟩
    rcases bind_eq_ok.mp h with ⟨_, hresolve, h⟩
    rcases bind_eq_ok.mp h with ⟨_, hnotify, h⟩
    rcases bind_eq_ok.mp h with ⟨_, hrendezvous, h⟩
    rcases bind_eq_ok.mp h with ⟨_, hpubcache, h⟩
    rcases bind_eq_ok.mp h with ⟨⟨name, path'⟩, hrouted, h⟩
    rcases bind_eq_ok.mp h with ⟨_, hglobal, h⟩
    rcases bind_eq_ok.mp h with ⟨_, htunnel, h⟩
    rcases bind_eq_ok.mp h with ⟨sess', honline, h⟩
    rcases bind_eq_ok.mp h with ⟨_, hentitled, h⟩
    rcases bind_eq_ok.mp h with ⟨_, hslot, h⟩
    rcases bind_eq_ok.mp h with ⟨_, hopened, h⟩
    cases h
    exact
      ⟨name,
        { notHealth := stopIf_decide_eq_ok.mp hhealth
          notResolve := stopIf_decide_eq_ok.mp hresolve
          notNotify := stopIf_decide_eq_ok.mp hnotify
          notRendezvous := stopIf_eq_ok.mp hrendezvous
          notPubcache := stopIf_eq_ok.mp hpubcache
          routed := orStop_eq_ok.mp hrouted
          global := stopIf_not_eq_ok.mp hglobal
          perTunnel := stopIf_not_eq_ok.mp htunnel
          online := orStop_eq_ok.mp honline
          entitled := stopIf_not_eq_ok.mp hentitled
          slot := stopIf_not_eq_ok.mp hslot
          opened := stopIf_not_eq_ok.mp hopened }⟩
  · intro h
    rcases h with ⟨name, h⟩
    apply bind_eq_ok.mpr ⟨(), stopIf_decide_eq_ok.mpr h.notHealth, _⟩
    apply bind_eq_ok.mpr ⟨(), stopIf_decide_eq_ok.mpr h.notResolve, _⟩
    apply bind_eq_ok.mpr ⟨(), stopIf_decide_eq_ok.mpr h.notNotify, _⟩
    apply bind_eq_ok.mpr ⟨(), stopIf_eq_ok.mpr h.notRendezvous, _⟩
    apply bind_eq_ok.mpr ⟨(), stopIf_eq_ok.mpr h.notPubcache, _⟩
    apply bind_eq_ok.mpr ⟨(name, path), orStop_eq_ok.mpr h.routed, _⟩
    apply bind_eq_ok.mpr ⟨(), stopIf_not_eq_ok.mpr h.global, _⟩
    apply bind_eq_ok.mpr ⟨(), stopIf_not_eq_ok.mpr h.perTunnel, _⟩
    apply bind_eq_ok.mpr ⟨sess, orStop_eq_ok.mpr h.online, _⟩
    apply bind_eq_ok.mpr ⟨(), stopIf_not_eq_ok.mpr h.entitled, _⟩
    apply bind_eq_ok.mpr ⟨(), stopIf_not_eq_ok.mpr h.slot, _⟩
    apply bind_eq_ok.mpr ⟨(), stopIf_not_eq_ok.mpr h.opened, _⟩
    rfl

theorem proxyWebSocket_eq_ok {out out' : Request} :
    proxyWebSocket s out = .ok out' <->
      s.hijacker = true ∧ s.hijacks = true ∧
        out' = { out with header := restoreUpgradeHeaders out.header } := by
  constructor
  · intro h
    rcases bind_eq_ok.mp h with ⟨_, hhijacker, h⟩
    rcases bind_eq_ok.mp h with ⟨_, hhijacks, h⟩
    cases h
    exact ⟨stopIf_not_eq_ok.mp hhijacker, stopIf_not_eq_ok.mp hhijacks, rfl⟩
  · intro h
    rcases h with ⟨hhijacker, hhijacks, hout⟩
    apply bind_eq_ok.mpr ⟨(), stopIf_not_eq_ok.mpr hhijacker, _⟩
    apply bind_eq_ok.mpr ⟨(), stopIf_not_eq_ok.mpr hhijacks, _⟩
    rw [hout]
    rfl

/-- The relay writes the request on a stream.  An upgrade is written only once the
client's connection is taken over. -/
def Reaches (s : Relay) (r : Inbound) : Prop :=
  (exists sess path name, Opens s r name path sess) ∧
    (isWebSocketUpgrade r.header = true -> s.hijacker = true ∧ s.hijacks = true)

theorem handlePublic_of_reaches (hname : EndToEnd name) (h : Reaches s r) :
    exists sess out, handlePublic s r = .ok (sess, out) ∧
      get out.header name =
        if ListedInConnection r.header name then [] else get r.header name := by
  rcases h with ⟨⟨sess, path, hopens⟩, hup⟩
  by_cases hws : isWebSocketUpgrade r.header = true
  · rcases hup hws with ⟨hhijacker, hhijacks⟩
    have hsocket : proxyWebSocket s (outReq s r path) =
        .ok { outReq s r path with header := restoreUpgradeHeaders (outReq s r path).header } :=
      proxyWebSocket_eq_ok.mpr ⟨hhijacker, hhijacks, rfl⟩
    refine ⟨sess, { outReq s r path with header := restoreUpgradeHeaders (outReq s r path).header },
      bind_eq_ok.mpr ⟨(sess, path), openStream_eq_ok.mpr hopens, ?_⟩, ?_⟩
    · rw [if_pos hws]
      exact bind_eq_ok.mpr ⟨_, hsocket, rfl⟩
    · exact (get_restoreUpgradeHeaders hname _).trans (get_sanitizeRequestHeaders hname _ _ _)
  · refine ⟨sess, outReq s r path,
      bind_eq_ok.mpr ⟨(sess, path), openStream_eq_ok.mpr hopens, ?_⟩,
      get_sanitizeRequestHeaders hname _ _ _⟩
    rw [if_neg hws]
    rfl

theorem reaches_of_handlePublic {written : Session × Request}
    (h : handlePublic s r = .ok written) : Reaches s r := by
  rcases bind_eq_ok.mp h with ⟨⟨sess, path⟩, hstream, h⟩
  refine ⟨⟨sess, path, openStream_eq_ok.mp hstream⟩, ?_⟩
  intro hws
  rw [if_pos hws] at h
  rcases bind_eq_ok.mp h with ⟨out, hout, _⟩
  rcases proxyWebSocket_eq_ok.mp hout with ⟨hhijacker, hhijacks, _⟩
  exact ⟨hhijacker, hhijacks⟩

/-!
## Who can command an agent

A stream is opened for a public request, for a notification, or for the command of a
drain.  The command header is an end-to-end header, so a client that sends it commands the
agent.
-/

/-- Why the relay opened a stream to an agent. -/
inductive Origin where
  | handlePublic (s : Relay) (r : Inbound)
  | forwardS2SNotify (sess : Session)
  | signalReconnect (sess : Session) (reason : Bytes)

def Origin.written : Origin -> Option Request
  | .handlePublic s r => (Proxy.handlePublic s r).toOption.map Prod.snd
  | .forwardS2SNotify sess => some (Proxy.forwardS2SNotify sess)
  | .signalReconnect sess reason => some (Proxy.signalReconnect sess reason)

/-- The agent proxies what public traffic has it read, and reconnects only when the relay
told it to. -/
structure Separated (a : Agent.Options) (o : Origin) (out : Request) : Prop where
  proxied : forall s r, o = .handlePublic s r ->
    serveStream a out = proxyLocal a out ∧ ¬ (serveStream a out).IsCommand
  reconnects : forall reason, serveStream a out = .reconnecting reason ->
    exists sess reason', o = .signalReconnect sess reason'

/-- The request keeps the command header from the agent: the client sent no value of it,
an empty first one, or lists the header in `Connection`. -/
def CommandKept (h : Header) : Prop :=
  get h agentCommandHeader = [] ∨ ListedInConnection h agentCommandHeader

/-- The stream cannot carry a client's command. -/
def Origin.Closed : Origin -> Prop
  | .handlePublic s r => Reaches s r -> CommandKept r.header
  | _ => True

theorem written_handlePublic {out : Request} :
    (Origin.handlePublic s r).written = some out <->
      exists sess, handlePublic s r = .ok (sess, out) := by
  rw [Origin.written]
  cases handlePublic s r with
  | error why => simp [Except.toOption]
  | ok written =>
      rcases written with ⟨sess, request⟩
      simp [Except.toOption]

theorem agentCommandHeader_endToEnd : EndToEnd agentCommandHeader where
  notHop := by decide +kernel
  notOwn := by decide +kernel

theorem get_of_commandKept {h : Header} :
    (if ListedInConnection h agentCommandHeader then [] else get h agentCommandHeader) = [] <->
      CommandKept h := by
  by_cases hlisted : ListedInConnection h agentCommandHeader
  · rw [if_pos hlisted]
    exact iff_of_true rfl (Or.inr hlisted)
  · rw [if_neg hlisted]
    exact (or_iff_left hlisted).symm

theorem forwardS2SNotify_not_command (a : Agent.Options) (sess : Session) :
    ¬ (serveStream a (forwardS2SNotify sess)).IsCommand := by
  rw [Agent.serveStream_isCommand_iff]
  have hcontent : ¬ SameHeader agentCommandHeader (lit "Content-Type") := by decide +kernel
  have hnotify : ¬ SameHeader agentCommandHeader (lit "X-Vulos-S2S-Notify") := by decide +kernel
  rw [forwardS2SNotify, get_set_other hnotify, get_set_other hcontent]
  exact not_not_intro rfl

/-- The agents stay out of the reach of public traffic exactly as far as no client's
command header gets through. -/
theorem separated_iff_closed (a : Agent.Options) (o : Origin) :
    (forall out, o.written = some out -> Separated a o out) <-> o.Closed := by
  cases o with
  | signalReconnect sess reason =>
      apply iff_of_true _ trivial
      intro out _
      exact ⟨fun s r heq => Origin.noConfusion heq, fun _ _ => ⟨sess, reason, rfl⟩⟩
  | forwardS2SNotify sess =>
      apply iff_of_true _ trivial
      intro out hout
      cases hout
      have hnot := forwardS2SNotify_not_command a sess
      exact ⟨fun s r heq => Origin.noConfusion heq,
        fun reason hre => absurd (Agent.isCommand_of_reconnecting hre) hnot⟩
  | handlePublic s r =>
      constructor
      · intro hseparated hreaches
        rcases handlePublic_of_reaches agentCommandHeader_endToEnd hreaches with
          ⟨sess, out, hpublic, hget⟩
        have hout := written_handlePublic.mpr ⟨sess, hpublic⟩
        have hnot := ((hseparated out hout).proxied s r rfl).2
        rw [Agent.serveStream_isCommand_iff, hget, ne_eq, not_not] at hnot
        exact get_of_commandKept.mp hnot
      · intro hclosed out hout
        rcases written_handlePublic.mp hout with ⟨sess, hpublic⟩
        have hreaches := reaches_of_handlePublic hpublic
        rcases handlePublic_of_reaches agentCommandHeader_endToEnd hreaches with
          ⟨sess', out, hagain, hget⟩
        cases hpublic.symm.trans hagain
        rw [get_of_commandKept.mpr (hclosed hreaches)] at hget
        have hlocal := Agent.serveStream_of_no_command (a := a) hget
        have hnot : ¬ (serveStream a out).IsCommand :=
          fun hcommand => (Agent.serveStream_isCommand_iff a out).mp hcommand hget
        exact ⟨fun _ _ _ => ⟨hlocal, hnot⟩,
          fun reason hre => absurd (Agent.isCommand_of_reconnecting hre) hnot⟩

/-- A relay for `relay.example` that lets everything through. -/
def openRelay : Relay where
  lowerRune := Char.toLower
  domain := lit "relay.example"
  enablePathMode := false
  trustProxyHeaders := false
  rendezvous := none
  pubcache := none
  agents := 1
  globalAllows := true
  requestAllows := fun _ => true
  lookup := fun name => some ⟨name, []⟩
  allowContinue := fun _ => true
  acquireStream := fun _ => true
  opensStream := fun _ => true
  hijacker := true
  hijacks := true

def commandRequest : Inbound where
  method := lit "GET"
  path := lit "/"
  host := lit "box.relay.example"
  header := read
    [(lit "Accept", lit "*/*"), (lit "x-vulos-relay-command", lit "reconnect"),
      (lit "x-vulos-relay-reason", lit "drain")]
  remoteAddr := lit "203.0.113.7:4711"
  tls := true

def localAgent : Agent.Options := ⟨lit "127.0.0.1:8080", true, true⟩

theorem commandRequest_opens :
    Opens openRelay commandRequest (lit "box") (lit "/") ⟨lit "box", []⟩ where
  notHealth := by decide +kernel
  notResolve := by decide +kernel
  notNotify := by decide +kernel
  notRendezvous := rfl
  notPubcache := rfl
  routed := by decide +kernel
  global := rfl
  perTunnel := rfl
  online := rfl
  entitled := rfl
  slot := rfl
  opened := rfl

theorem plain_request_is_separated :
    forall out,
      (Origin.handlePublic openRelay { commandRequest with header := ∅ }).written = some out ->
        Separated localAgent (.handlePublic openRelay { commandRequest with header := ∅ }) out :=
  (separated_iff_closed _ _).mpr fun _ => Or.inl rfl

/-- A client of the tunnel `box` makes the agent reconnect. -/
theorem client_makes_agent_reconnect :
    exists out, (Origin.handlePublic openRelay commandRequest).written = some out ∧
      serveStream localAgent out = .reconnecting (lit "drain") ∧
      ¬ Separated localAgent (.handlePublic openRelay commandRequest) out := by
  have hplain : ¬ isWebSocketUpgrade commandRequest.header = true := by decide +kernel
  have hpublic : handlePublic openRelay commandRequest =
      .ok (⟨lit "box", []⟩, outReq openRelay commandRequest (lit "/")) := by
    apply bind_eq_ok.mpr ⟨_, openStream_eq_ok.mpr ⟨_, commandRequest_opens⟩, _⟩
    rw [if_neg hplain]
    rfl
  have hcommand : get (outReq openRelay commandRequest (lit "/")).header agentCommandHeader =
      commandReconnect := by decide +kernel
  have hreason : get (outReq openRelay commandRequest (lit "/")).header agentReasonHeader =
      lit "drain" := by decide +kernel
  have hpresent : commandReconnect ≠ [] := by decide +kernel
  have hserved : serveStream localAgent (outReq openRelay commandRequest (lit "/")) =
      .reconnecting (lit "drain") := by
    rw [serveStream, hcommand, hreason, if_pos hpresent, Agent.handleControlCommand, if_pos rfl]
  refine ⟨_, written_handlePublic.mpr ⟨_, hpublic⟩, hserved, ?_⟩
  intro hseparated
  rcases hseparated.reconnects _ hserved with ⟨_, _, heq⟩
  cases heq

end Proxy
end Server
end Ephor
