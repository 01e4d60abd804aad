import Ephor.Server.Proxy

/-!
# What the relay strips and what it says of the client

`tunnel/server/proxy.go`: `stripHopByHop` deletes the fields that end at this hop from a request
before it goes to the agent, and from a response before it goes to the client.  It learns the names
from `Connection`, of which `Header.Get` reads the first line only.  What the relay tells the agent
of the client's address comes from the connection.
-/

namespace Ephor
namespace Server
namespace Proxy

open Foundation
open Foundation.HttpHeader
open Foundation.GoText (lit)

def connectionLines (h : Header) : List Bytes :=
  (h.lookup (canonicalMIMEHeaderKey (lit "Connection"))).getD []

def tokensOf (line : Bytes) : List Bytes :=
  ((line.splitOn 0x2C).map GoText.trimSpace).filter (· ≠ [])

def HopField (name : Bytes) : Prop :=
  exists hop, hop ∈ hopByHopHeaders ∧ SameHeader name hop

instance (name : Bytes) : Decidable (HopField name) :=
  inferInstanceAs (Decidable (exists hop, hop ∈ hopByHopHeaders ∧ SameHeader name hop))

/-- One of the fields that say of the client what `SaysOfClient` has. -/
def ClientField (name : Bytes) : Prop :=
  exists field, field ∈ [lit "X-Forwarded-For", lit "X-Real-IP", lit "X-Forwarded-Proto"] ∧
    SameHeader name field

instance (name : Bytes) : Decidable (ClientField name) :=
  inferInstanceAs (Decidable (exists field, field ∈ _ ∧ SameHeader name field))

/-- The field ends at this hop: it is a standard one, or another one, not of those that say of the
client, that a line of `Connection` names. -/
def EndsHere (h : Header) (name : Bytes) : Prop :=
  HopField name ∨ Not (ClientField name) ∧
    exists line, line ∈ connectionLines h ∧ name ∈ tokensOf line

/-- The later lines of `Connection` name no field of the message that the first line does not
name, the standard ones and those that say of the client apart. -/
def FirstLineNamesAll (h : Header) : Prop :=
  forall line, line ∈ (connectionLines h).tail -> forall name, name ∈ tokensOf line ->
    Not (ClientField name) -> h.lookup (canonicalMIMEHeaderKey name) = none ∨ HopField name ∨
      ListedInConnection h name

structure SaysOfClient (remoteAddr : Bytes) (tls : Bool) (h : Header) : Prop where
  forwardedFor : h.lookup (lit "X-Forwarded-For") = some [clientIP remoteAddr]
  -- The canonical form of `X-Real-IP`.
  realIP : h.lookup (lit "X-Real-Ip") = some [clientIP remoteAddr]
  proto : h.lookup (lit "X-Forwarded-Proto") = some [if tls then lit "https" else lit "http"]

variable {h : Header}

theorem tokensOf_get (h : Header) :
    connectionTokens h = tokensOf ((connectionLines h).head?.getD []) := by
  rw [connectionTokens, HttpHeader.get, connectionLines]
  cases h.lookup (canonicalMIMEHeaderKey (lit "Connection")) <;> rfl

theorem lookup_stripHopByHop (h : Header) (name : Bytes) :
    (stripHopByHop h).lookup (canonicalMIMEHeaderKey name) = none <->
      h.lookup (canonicalMIMEHeaderKey name) = none ∨ HopField name ∨
        ListedInConnection h name := by
  rw [stripHopByHop, lookup_foldl_del, lookup_foldl_del]
  change (if HopField name then none else if ListedInConnection h name then none else _) = _ <-> _
  by_cases hhop : HopField name
  · simp [hhop]
  · by_cases hlisted : ListedInConnection h name
    · simp [hlisted]
    · simp [hhop, hlisted]

theorem strips_iff (h : Header) : (forall name, EndsHere h name ->
      (stripHopByHop h).lookup (canonicalMIMEHeaderKey name) = none) <-> FirstLineNamesAll h := by
  constructor
  · intro hstrips line hline name hname hother
    exact (lookup_stripHopByHop h name).mp
      (hstrips name (Or.inr ⟨hother, line, List.mem_of_mem_tail hline, hname⟩))
  · intro hfirst name hends
    apply (lookup_stripHopByHop h name).mpr
    rcases hends with hhop | ⟨hother, line, hline, hname⟩
    · exact Or.inr (Or.inl hhop)
    · cases hlines : connectionLines h with
      | nil =>
          rw [hlines] at hline
          cases hline
      | cons first rest =>
          rw [hlines] at hline
          rcases List.mem_cons.mp hline with heq | hrest
          · have htoken : name ∈ connectionTokens h := by
              rw [tokensOf_get, hlines]
              exact heq ▸ hname
            exact Or.inr (Or.inr ⟨name, htoken, rfl⟩)
          · exact hfirst line (by rw [hlines]; exact hrest) name hname hother

theorem saysOfClient_sanitize (h : Header) (r : Inbound) :
    SaysOfClient r.remoteAddr r.tls (sanitizeRequestHeaders h r false) where
  forwardedFor := by
    simp only [sanitizeRequestHeaders, forwardedFor, Bool.false_eq_true, if_false, lookup_set]
    rw [if_neg (by decide +kernel), if_neg (by decide +kernel), if_neg (by decide +kernel),
      if_pos (by decide +kernel)]
  realIP := by
    simp only [sanitizeRequestHeaders, forwardedFor, Bool.false_eq_true, if_false, lookup_set]
    rw [if_neg (by decide +kernel), if_neg (by decide +kernel), if_pos (by decide +kernel)]
  proto := by
    rw [sanitizeRequestHeaders, lookup_set, if_pos (by decide +kernel), forwardedProto,
      Bool.false_and]
    rfl

theorem saysOfClient_restore {remoteAddr : Bytes} {tls : Bool}
    (hclient : SaysOfClient remoteAddr tls h) :
    SaysOfClient remoteAddr tls (restoreUpgradeHeaders h) := by
  have hkeep : forall key, key ≠ canonicalMIMEHeaderKey (lit "Connection") ->
      key ≠ canonicalMIMEHeaderKey (lit "Upgrade") ->
      (restoreUpgradeHeaders h).lookup key = h.lookup key := by
    intro key hconnection hupgrade
    rw [restoreUpgradeHeaders, lookup_set, if_neg hupgrade, lookup_set, if_neg hconnection]
  constructor
  · exact (hkeep _ (by decide +kernel) (by decide +kernel)).trans hclient.forwardedFor
  · exact (hkeep _ (by decide +kernel) (by decide +kernel)).trans hclient.realIP
  · exact (hkeep _ (by decide +kernel) (by decide +kernel)).trans hclient.proto

/--
Without a trusted proxy in front, what the agent is told of the client is a function of the
connection.  A field that ends at this hop is stripped if and only if the first line of
`Connection` names all that the later lines name.
-/
theorem hop_fields_are_stripped_iff (s : Relay) (r : Inbound)
    (sess : Session) (out : Request) (h : Header) :
    (s.trustProxyHeaders = false -> handlePublic s r = .ok (sess, out) ->
      SaysOfClient r.remoteAddr r.tls out.header) ∧
    ((forall name, EndsHere h name ->
      (stripHopByHop h).lookup (canonicalMIMEHeaderKey name) = none) <-> FirstLineNamesAll h) := by
  refine ⟨?_, strips_iff h⟩
  intro hdirect h
  rcases bind_eq_ok.mp h with ⟨⟨sess', path⟩, hstream, h⟩
  have hclient : SaysOfClient r.remoteAddr r.tls (outReq s r path).header := by
    rw [outReq, hdirect]
    exact saysOfClient_sanitize _ _
  split_ifs at h with hws
  · rcases bind_eq_ok.mp h with ⟨out', hout, h⟩
    cases h
    rw [(proxyWebSocket_eq_ok.mp hout).2.2]
    exact saysOfClient_restore hclient
  · cases h
    exact hclient

theorem first_connection_line_is_heeded :
    let h := read [(lit "Connection", lit "close, X-Hop"), (lit "X-Hop", lit "1")]
    (stripHopByHop h).lookup (canonicalMIMEHeaderKey (lit "X-Hop")) = none := by
  intro h
  refine (hop_fields_are_stripped_iff openRelay commandRequest ⟨[], []⟩
    (outReq openRelay commandRequest []) h).2.mpr (fun line hline => ?_) _ ?_
  · cases hline
  · exact Or.inr ⟨by decide +kernel, lit "close, X-Hop", by decide +kernel, by decide +kernel⟩

/-- A second `Connection` line names a field that the relay passes on. -/
theorem second_connection_line_is_ignored :
    let h := read [(lit "Connection", lit "close"), (lit "Connection", lit "X-Hop"),
      (lit "X-Hop", lit "1")]
    EndsHere h (lit "X-Hop") ∧
      (stripHopByHop h).lookup (canonicalMIMEHeaderKey (lit "X-Hop")) = some [lit "1"] := by
  exact ⟨Or.inr ⟨by decide +kernel, lit "X-Hop", by decide +kernel, by decide +kernel⟩,
    by decide +kernel⟩

end Proxy
end Server
end Ephor
