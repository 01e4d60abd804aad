import Ephor.Foundation.FiniteMap
import Ephor.Foundation.Transition

/-!
# Usage metering

The `meter` of the tunnel server.  Traffic adds to a pending delta per account.
`flushOnce` takes the batches that failed before, drains the deltas into a new batch
under a fresh report id, reports the batches one by one to the control plane and
puts back what failed.  Every section under the meter's mutex, every use of the
sequence counter and every report is one step, so traffic and other flushes run in
between.

A report can fail before or after the control plane applied it, and a request
that was sent can still arrive later.  The control plane applies each report id once.

The machine also keeps its history: the batches that were given an id, and those
whose report came back without an error.
-/

namespace Ephor
namespace Server

open Foundation

inductive Quantity where
  | bytes
  | sessions
deriving DecidableEq

structure MeterDelta where
  bytes : Int64
  sessions : Int64
deriving DecidableEq

def MeterDelta.get (d : MeterDelta) : Quantity -> Int64
  | Quantity.bytes => d.bytes
  | Quantity.sessions => d.sessions

structure UsageItem where
  accountID : String
  bytes : Int64
  sessions : Int64
deriving DecidableEq

def UsageItem.get (i : UsageItem) : Quantity -> Int64
  | Quantity.bytes => i.bytes
  | Quantity.sessions => i.sessions

structure PendingReport where
  id : String
  items : List UsageItem
deriving DecidableEq

structure Meter where
  popID : String
  bootID : String
  pending : FiniteMap String MeterDelta
  maxAccounts : Nat
  seq : UInt64
  retry : List PendingReport
  maxRetryBatches : Nat

namespace Meter

def newMeter (popID bootID : String) : Meter where
  popID := popID
  bootID := bootID
  pending := ∅
  maxAccounts := 50000
  seq := 0
  retry := []
  maxRetryBatches := 1024

/-- The section of `addBytes` and `addSession`: a new account needs room. -/
def count (m : Meter) (accountID : String) (f : MeterDelta -> MeterDelta) : Meter :=
  match m.pending.lookup accountID with
  | some d => { m with pending := m.pending.insert accountID (f d) }
  | none =>
      if m.maxAccounts <= FiniteMap.size m.pending then
        m
      else
        { m with pending := m.pending.insert accountID (f ⟨0, 0⟩) }

def addBytes (m : Meter) (accountID : String) (n : Int64) : Meter :=
  if accountID = "" ∨ n <= 0 then
    m
  else
    m.count accountID fun d => { d with bytes := d.bytes + n }

def addSession (m : Meter) (accountID : String) : Meter :=
  if accountID = "" then
    m
  else
    m.count accountID fun d => { d with sessions := d.sessions + 1 }

/-- The item of one account; an account without usage has none. -/
def usageItem (m : Meter) (accountID : String) : Option UsageItem :=
  match m.pending.lookup accountID with
  | some d =>
      if d.bytes = 0 ∧ d.sessions = 0 then none
      else some ⟨accountID, d.bytes, d.sessions⟩
  | none => none

def drain (m : Meter) (order : List String) : List UsageItem × Meter :=
  (order.filterMap m.usageItem, { m with pending := ∅ })

def takeRetry (m : Meter) : List PendingReport × Meter :=
  (m.retry, { m with retry := [] })

/-- `requeue`: past the bound the oldest batches are dropped. -/
def requeue (m : Meter) (batches : List PendingReport) : Meter :=
  let retry := m.retry ++ batches
  { m with retry := retry.drop (retry.length - m.maxRetryBatches) }

/-- The text of the `n`th report id of this boot. -/
def reportID (popID bootID : String) (n : Nat) : String :=
  popID ++ "-" ++ bootID ++ "-" ++ Nat.repr n

def nextReportID (m : Meter) : String × Meter :=
  (reportID m.popID m.bootID (m.seq + 1).toNat, { m with seq := m.seq + 1 })

end Meter

/-!
# Flushes and the control plane
-/

/-- Where a run of `flushOnce` stands. -/
inductive FlushStage where
  | takeRetry
  | drain (batches : List PendingReport)
  | assign (batches : List PendingReport) (newItems : List UsageItem)
  | report (batches failed : List PendingReport)
  | done
deriving DecidableEq

/-- Only a drain that found usage makes a new batch. -/
def FlushStage.drained (batches : List PendingReport) : List UsageItem -> FlushStage
  | [] => FlushStage.report batches []
  | newItems => FlushStage.assign batches newItems

/-- How one call of `ReportUsage` ends. -/
inductive Outcome where
  | ok
  | failedBefore
  | failedAfter
deriving DecidableEq

structure Answer where
  order : List String
  outcome : Outcome

structure System where
  meter : Meter
  flushes : FiniteMap Nat FlushStage
  sent : List PendingReport
  applied : List PendingReport
  created : List PendingReport
  settled : List PendingReport

inductive Event where
  | addBytes (accountID : String) (n : Int64)
  | addSession (accountID : String)
  | startFlush (id : Nat)
  | flush (id : Nat) (answer : Answer)
  | late (batch : PendingReport)

namespace System

def start (popID bootID : String) : System where
  meter := Meter.newMeter popID bootID
  flushes := ∅
  sent := []
  applied := []
  created := []
  settled := []

/-- The control plane takes each report id once. -/
def apply (applied : List PendingReport) (b : PendingReport) : List PendingReport :=
  if b.id ∈ applied.map PendingReport.id then applied else applied ++ [b]

/-- One call of `ReportUsage`; a batch whose call fails is kept. -/
def report (s : System) (id : Nat) (b : PendingReport)
    (batches failed : List PendingReport) : Outcome -> System
  | Outcome.ok =>
      { s with
        sent := s.sent ++ [b]
        applied := apply s.applied b
        settled := s.settled ++ [b]
        flushes := s.flushes.insert id (FlushStage.report batches failed) }
  | Outcome.failedBefore =>
      { s with
        sent := s.sent ++ [b]
        flushes := s.flushes.insert id (FlushStage.report batches (failed ++ [b])) }
  | Outcome.failedAfter =>
      { s with
        sent := s.sent ++ [b]
        applied := apply s.applied b
        flushes := s.flushes.insert id (FlushStage.report batches (failed ++ [b])) }

def advance (s : System) (id : Nat) (answer : Answer) : FlushStage -> System
  | FlushStage.takeRetry =>
      { s with
        meter := s.meter.takeRetry.2
        flushes := s.flushes.insert id (FlushStage.drain s.meter.takeRetry.1) }
  | FlushStage.drain batches =>
      if FiniteMap.Visits answer.order s.meter.pending then
        { s with
          meter := (s.meter.drain answer.order).2
          flushes := s.flushes.insert id
            (FlushStage.drained batches (s.meter.drain answer.order).1) }
      else
        s
  | FlushStage.assign batches newItems =>
      let b : PendingReport := ⟨s.meter.nextReportID.1, newItems⟩
      { s with
        meter := s.meter.nextReportID.2
        created := s.created ++ [b]
        flushes := s.flushes.insert id (FlushStage.report (batches ++ [b]) []) }
  | FlushStage.report [] failed =>
      { s with
        meter := s.meter.requeue failed
        flushes := s.flushes.insert id FlushStage.done }
  | FlushStage.report (b :: batches) failed => s.report id b batches failed answer.outcome
  | FlushStage.done => s

def step (s : System) : Event -> System
  | Event.addBytes accountID n => { s with meter := s.meter.addBytes accountID n }
  | Event.addSession accountID => { s with meter := s.meter.addSession accountID }
  | Event.startFlush id =>
      match s.flushes.lookup id with
      | none => { s with flushes := s.flushes.insert id FlushStage.takeRetry }
      | some FlushStage.done =>
          { s with flushes := s.flushes.insert id FlushStage.takeRetry }
      | some _ => s
  | Event.flush id answer =>
      match s.flushes.lookup id with
      | none => s
      | some stage => s.advance id answer stage
  | Event.late b =>
      if b ∈ s.sent then { s with applied := apply s.applied b } else s

end System

end Server
end Ephor
