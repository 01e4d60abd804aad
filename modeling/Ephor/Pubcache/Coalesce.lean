import Ephor.Foundation.FiniteMap
import Ephor.Pubcache.FeedRange

/-!
# Shared fetches

`fetcher.do` and `fetcher.fetch` of `pubcache/upstream.go`.  Calls with one coalesce key
share a fetch: the first call leads it with its own context, the others wait for its
result.  The machine here interleaves any number of calls, one section under the lock, one
channel operation or one upstream answer at a time.
-/

namespace Ephor
namespace Pubcache

open Foundation
open Foundation.GoUrl (Url)

/-!
# Calls
-/

/-- The errors of a fetch: no upstream is configured, the last upstream failed, or the
context of the call that fetched was cancelled. -/
inductive FetchError where
  | notServed
  | upstream (detail : String)
  | context
deriving DecidableEq

abbrev Fetched := Bytes × Bytes

abbrev Outcome := Except FetchError Fetched

inductive DoPc where
  | enter
  | waiting (leader : Nat)
  | acquiring
  | trying (rest : List Url)
  | publishing (result : Outcome)
  | removing (result : Outcome)
  /-- The result is that of the fetch of `source`. -/
  | returned (source : Nat) (result : Outcome)
deriving DecidableEq

structure DoCall where
  coalesceKey : String
  suffix : Bytes
  cancelled : Bool
  pc : DoPc
deriving DecidableEq

/-- What `fetchOne` asked for in a call, and what came of it. -/
structure Attempt where
  call : Nat
  url : Url
  answer : Except String Fetched
deriving DecidableEq

/-- `fetcher` and the calls on it.  A flight is named by the call that leads it; `done`
holds the results of the flights whose channel is closed. -/
structure Fetcher where
  upstreams : List Url
  maxInflight : Nat
  calls : FiniteMap Nat DoCall
  flight : FiniteMap String Nat
  done : FiniteMap Nat Outcome
  inflight : Nat
  attempts : List Attempt

namespace Fetcher

def init (upstreams : List Url) (maxInflight : Int) : Fetcher where
  upstreams := upstreams
  maxInflight := if maxInflight <= 0 then 1 else maxInflight.toNat
  calls := ∅
  flight := ∅
  done := ∅
  inflight := 0
  attempts := []

/-- What a call does next; the scheduler chooses, and decides what an upstream answers. -/
inductive Action where
  | cancel
  | enter
  | acquire
  | answer (outcome : Except String Fetched)
  | giveUp
  | publish
  | remove
  | receive
deriving DecidableEq

inductive Event where
  | arrive (c : Nat) (coalesceKey : String) (suffix : Bytes)
  | act (c : Nat) (action : Action)
deriving DecidableEq

def setCall (s : Fetcher) (c : Nat) (call : DoCall) : Fetcher :=
  { s with calls := s.calls.insert c call }

def goto (s : Fetcher) (c : Nat) (call : DoCall) (pc : DoPc) : Fetcher :=
  s.setCall c { call with pc := pc }

/-- `do` up to the fetch or the wait: the section under the lock. -/
def enter (s : Fetcher) (c : Nat) (call : DoCall) : Fetcher :=
  if s.upstreams = [] then
    s.goto c call (DoPc.returned c (Except.error FetchError.notServed))
  else if call.coalesceKey = "" then
    s.goto c call DoPc.acquiring
  else
    match s.flight.lookup call.coalesceKey with
    | some leader => s.goto c call (DoPc.waiting leader)
    | none =>
        { s with flight := s.flight.insert call.coalesceKey c }.goto c call DoPc.acquiring

/-- What follows the end of `fetch` in `do`. -/
def finish (s : Fetcher) (c : Nat) (call : DoCall) (result : Outcome) : Fetcher :=
  if call.coalesceKey = "" then
    s.goto c call (DoPc.returned c result)
  else
    s.goto c call (DoPc.publishing result)

def release (s : Fetcher) : Fetcher :=
  { s with inflight := s.inflight - 1 }

def record (s : Fetcher) (attempt : Attempt) : Fetcher :=
  { s with attempts := s.attempts ++ [attempt] }

/-- What follows an answer in the loop of `fetch`. -/
def answered (s : Fetcher) (c : Nat) (call : DoCall) (rest : List Url)
    (outcome : Except String Fetched) : Fetcher :=
  match outcome with
  | Except.ok fetched => s.release.finish c call (Except.ok fetched)
  | Except.error detail =>
      if call.cancelled then
        s.release.finish c call (Except.error FetchError.context)
      else
        match rest with
        | [] => s.release.finish c call (Except.error (FetchError.upstream detail))
        | _ :: _ => s.goto c call (DoPc.trying rest)

/-- One round of the loop of `fetch`. -/
def tryOne (s : Fetcher) (c : Nat) (call : DoCall) (base : Url) (rest : List Url)
    (outcome : Except String Fetched) : Fetcher :=
  (s.record ⟨c, upstreamURL base call.suffix, outcome⟩).answered c call rest outcome

/-- An action of a call; one that the call is not ready for does nothing. -/
def act (s : Fetcher) (c : Nat) (call : DoCall) (action : Action) : Fetcher :=
  match action, call.pc with
  | Action.cancel, _ => s.setCall c { call with cancelled := true }
  | Action.enter, DoPc.enter => s.enter c call
  | Action.acquire, DoPc.acquiring =>
      if s.inflight < s.maxInflight then
        { s with inflight := s.inflight + 1 }.goto c call (DoPc.trying s.upstreams)
      else
        s
  | Action.answer outcome, DoPc.trying (base :: rest) => s.tryOne c call base rest outcome
  | Action.giveUp, DoPc.acquiring =>
      if call.cancelled then s.finish c call (Except.error FetchError.context) else s
  | Action.giveUp, DoPc.waiting _ =>
      if call.cancelled then
        s.goto c call (DoPc.returned c (Except.error FetchError.context))
      else
        s
  | Action.publish, DoPc.publishing result =>
      { s with done := s.done.insert c result }.goto c call (DoPc.removing result)
  | Action.remove, DoPc.removing result =>
      { s with flight := s.flight.erase call.coalesceKey }.goto c call
        (DoPc.returned c result)
  | Action.receive, DoPc.waiting leader =>
      match s.done.lookup leader with
      | some result => s.goto c call (DoPc.returned leader result)
      | none => s
  | _, _ => s

def step (s : Fetcher) (e : Event) : Fetcher :=
  match e with
  | Event.arrive c coalesceKey suffix =>
      if (s.calls.lookup c).isSome then s
      else s.setCall c ⟨coalesceKey, suffix, false, DoPc.enter⟩
  | Event.act c action =>
      match s.calls.lookup c with
      | none => s
      | some call => s.act c call action

/-!
# What a result rests on
-/

def AllFailed (s : Fetcher) (source : Nat) (suffix : Bytes) (bases : List Url) : Prop :=
  forall base, base ∈ bases -> exists detail,
    ⟨source, upstreamURL base suffix, Except.error detail⟩ ∈ s.attempts

/-- An upstream answered the suffix with this in the fetch of the call. -/
def Obtained (s : Fetcher) (source : Nat) (suffix : Bytes) (fetched : Fetched) : Prop :=
  exists base, base ∈ s.upstreams ∧
    ⟨source, upstreamURL base suffix, Except.ok fetched⟩ ∈ s.attempts

/-- No call gets an error from the cancellation of another one: a call that was not
cancelled itself fails when all upstreams failed in the shared fetch, and what it returns
was fetched for its own suffix. -/
def NoLeak (s : Fetcher) : Prop :=
  forall c call source result, s.calls.lookup c = some call ->
    call.pc = DoPc.returned source result ->
      (exists leader, s.calls.lookup source = some leader ∧
        leader.coalesceKey = call.coalesceKey) ∧
      (forall e, result = Except.error e -> call.cancelled = false ->
        s.AllFailed source call.suffix s.upstreams) ∧
      forall fetched, result = Except.ok fetched -> s.Obtained source call.suffix fetched

/-- The result of a call whose fetch or wait is over. -/
def ended (pc : DoPc) : Option Outcome :=
  match pc with
  | DoPc.publishing result => some result
  | DoPc.removing result => some result
  | DoPc.returned _ result => some result
  | _ => none

def waitedFor (s : Fetcher) (c : Nat) : Bool :=
  FiniteMap.any (fun _ call => call.pc == DoPc.waiting c) s.calls

/-- The flight was led for the same suffix, and has not ended with a cancelled context. -/
def mayJoin (s : Fetcher) (call : DoCall) (leader : Nat) : Bool :=
  match s.calls.lookup leader with
  | none => true
  | some lead =>
      lead.suffix == call.suffix && ended lead.pc != some (Except.error FetchError.context)

/-- A fetch that others wait for does not end with the cancelled context of its leader,
and a call joins a flight that did not end so and is for its own suffix. -/
def shares (s : Fetcher) (e : Event) : Bool :=
  match e with
  | Event.arrive _ _ _ => true
  | Event.act c action =>
      match s.calls.lookup c with
      | none => true
      | some call =>
          match action, call.pc with
          | Action.giveUp, DoPc.acquiring => !(call.cancelled && s.waitedFor c)
          | Action.answer (Except.error _), DoPc.trying _ =>
              !(call.cancelled && s.waitedFor c)
          | Action.enter, DoPc.enter =>
              match s.flight.lookup call.coalesceKey with
              | none => true
              | some leader => s.mayJoin call leader
          | _, _ => true

end Fetcher

end Pubcache
end Ephor
