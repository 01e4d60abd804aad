import Ephor.Foundation.HttpHeader

/-!
# The agent's end of a stream

`tunnel/agent/forward.go`: the relay opens a stream to the agent and writes one request
on it.  `serveStream` takes a request that carries the command header as a command to the
agent itself, and proxies every other one to the local target.  The options hold how the
local side answers: whether `ensureLoopback` accepts the configured target, and whether
dialing it succeeds.
-/

namespace Ephor
namespace Agent

open Foundation
open Foundation.HttpHeader
open Foundation.GoText (lit)

def agentCommandHeader : Bytes := lit "X-Vulos-Relay-Command"

def agentReasonHeader : Bytes := lit "X-Vulos-Relay-Reason"

def agentControlPath : Bytes := lit "/_vulos-relay/agent-control"

def commandReconnect : Bytes := lit "reconnect"

structure Options where
  localAddr : Bytes
  /-- Whether `ensureLoopback` accepts the address. -/
  loopback : Bool
  dials : Bool

inductive Served where
  /-- `requestReconnect` was called with this reason, after the answer 200. -/
  | reconnecting (reason : Bytes)
  /-- A command the agent does not know: 400. -/
  | unknownCommand
  /-- The target is not loopback: 403. -/
  | forbidden
  /-- The target did not answer: 502. -/
  | unreachable
  /-- The request went to the local target, to be spliced if it is an upgrade. -/
  | proxied (request : Request) (upgrade : Bool)

def handleControlCommand (cmd reason : Bytes) : Served :=
  if cmd = commandReconnect then .reconnecting reason else .unknownCommand

/-- The part of `serveStream` that proxies the request to the local target. -/
def proxyLocal (a : Options) (req : Request) : Served :=
  if !a.loopback then
    .forbidden
  else if !a.dials then
    .unreachable
  else
    .proxied { req with host := a.localAddr } (isWebSocketUpgrade req.header)

def serveStream (a : Options) (req : Request) : Served :=
  let cmd := get req.header agentCommandHeader
  if cmd ≠ [] then
    handleControlCommand cmd (get req.header agentReasonHeader)
  else
    proxyLocal a req

def Served.IsCommand : Served -> Prop
  | .reconnecting _ => True
  | .unknownCommand => True
  | _ => False

theorem handleControlCommand_isCommand (cmd reason : Bytes) :
    (handleControlCommand cmd reason).IsCommand := by
  rw [handleControlCommand]
  split <;> trivial

theorem proxyLocal_not_command (a : Options) (req : Request) : ¬ (proxyLocal a req).IsCommand := by
  rw [proxyLocal]
  cases a.loopback <;> cases a.dials <;> exact id

theorem serveStream_of_no_command {a : Options} {req : Request}
    (h : get req.header agentCommandHeader = []) : serveStream a req = proxyLocal a req :=
  if_neg (not_not_intro h)

theorem serveStream_isCommand_iff (a : Options) (req : Request) :
    (serveStream a req).IsCommand <-> get req.header agentCommandHeader ≠ [] := by
  by_cases hcmd : get req.header agentCommandHeader = []
  · rw [serveStream_of_no_command hcmd]
    exact iff_of_false (proxyLocal_not_command a req) (not_not_intro hcmd)
  · rw [serveStream, if_pos hcmd]
    exact iff_of_true (handleControlCommand_isCommand _ _) hcmd

theorem isCommand_of_reconnecting {a : Options} {req : Request} {reason : Bytes}
    (h : serveStream a req = .reconnecting reason) : (serveStream a req).IsCommand := by
  rw [h]
  trivial

end Agent
end Ephor
