import Ephor.Billing.PrepaidCalls
import Ephor.Billing.Settlement
import Ephor.Billing.Tariff
import Mathlib.Algebra.BigOperators.Group.List.Basic

/-!
# Simulated billing

`SimEngine` of `pier-billing` and the meter it drives.  A metered usage is recorded, taken
out of the meter at once, evaluated and debited; receipts are issued for what was debited.
-/

namespace Ephor
namespace Billing

open Foundation
open Prepaid (PrepaidLedger PrepaidError TopUpRecord DebitRecord RefundRecord BillingState)

/-!
# The meter
-/

structure InMemoryMeter where
  table : FiniteMap Bytes Usage

namespace InMemoryMeter

def new : InMemoryMeter where
  table := ∅

def usage (m : InMemoryMeter) (payer : Bytes) : Usage :=
  (m.table.lookup payer).getD ∅

def record (m : InMemoryMeter) (payer : Bytes) (kind : ResourceKind) (units : UInt64) :
    InMemoryMeter where
  table := m.table.insert payer ((m.usage payer).insert kind
    (saturatingAdd (((m.usage payer).lookup kind).getD 0) units))

/-- `reset`: the usage that was cleared, and the meter without it. -/
def reset (m : InMemoryMeter) (payer : Bytes) : Usage × InMemoryMeter :=
  (m.usage payer, ⟨m.table.erase payer⟩)

def held (m : InMemoryMeter) (payer : Bytes) (kind : ResourceKind) : Nat :=
  (((m.usage payer).lookup kind).getD 0).toNat

end InMemoryMeter

/-!
# Events and outcomes
-/

/-- A settlement rail with the state behind its `charge`. -/
structure SettlementRail where
  State : Type
  Error : Type
  charge : State -> Bytes -> UInt64 -> String -> Except Error SettlementReceipt × State
  debug : Error -> String

inductive BillingEvent where
  | topUp (payer : Bytes) (amount : UInt64) (fundingRef : String)
  | meteredUsage (payer : Bytes) (kind : ResourceKind) (units : UInt64)
  | tariffChange (schedule : TariffSchedule)
  | refund (payer : Bytes) (amount : UInt64)
  | monthlyCharge (payer : Bytes) (amount : UInt64) (currency : String)

/-- A receipt carries the operation in the clear, beside what signs it. -/
structure SignedOperation (signature : Type) where
  operation : BilledOperation
  sig : signature

inductive BillingOutcome (signature : Type) where
  | toppedUp (record : TopUpRecord)
  | debited (record : DebitRecord) (receipts : List (SignedOperation signature))
  | debitFailed (payer : Bytes) (error : PrepaidError)
  | tariffChanged
  | refunded (record : RefundRecord)
  | lowBalance (payer : Bytes) (balance : UInt64)
  | exhausted (payer : Bytes)
  | monthlyCharged (receipt : SettlementReceipt)
  | monthlyChargeFailed (payer : Bytes) (error : String)

/-!
# The engine
-/

structure SimEngine (rail : SettlementRail) (identityKey signature : Type) where
  meter : InMemoryMeter
  ledger : PrepaidLedger
  lowBalanceThreshold : UInt64
  schedule : TariffSchedule
  log : ReceiptLog (SignedOperation signature)
  ik : identityKey
  railState : rail.State

namespace SimEngine

variable {rail : SettlementRail} {identityKey signature : Type}
  (signDomain : BilledOperation -> identityKey -> signature)

def new (ledger : PrepaidLedger) (lowBalanceThreshold : UInt64) (schedule : TariffSchedule)
    (ik : identityKey) (railState : rail.State) : SimEngine rail identityKey signature where
  meter := InMemoryMeter.new
  ledger := ledger
  lowBalanceThreshold := lowBalanceThreshold
  schedule := schedule
  log := ReceiptLog.new
  ik := ik
  railState := railState

def stateNotification (s : SimEngine rail identityKey signature) (payer : Bytes) :
    List (BillingOutcome signature) :=
  match s.ledger.state s.lowBalanceThreshold payer with
  | BillingState.lowBalance => [BillingOutcome.lowBalance payer (s.ledger.balance payer)]
  | BillingState.exhausted => [BillingOutcome.exhausted payer]
  | BillingState.ok => []

def sign (op : BilledOperation) (ik : identityKey) : SignedOperation signature :=
  ⟨op, signDomain op ik⟩

/-- What `apply` does with a usage that was taken out of the meter. -/
def billUsage (s : SimEngine rail identityKey signature) (payer : Bytes) (usage : Usage) :
    SimEngine rail identityKey signature × List (BillingOutcome signature) :=
  match (s.schedule.evaluate usage : Except (BillingError Unit) Bill) with
  | Except.ok bill =>
      match s.ledger.debitAndReceipt (sign signDomain) payer bill s.log s.ik with
      | (Except.ok (record, receipts), ledger, log) =>
          let s := { s with ledger := ledger, log := log }
          (s, BillingOutcome.debited record receipts :: s.stateNotification payer)
      | (Except.error error, ledger, log) =>
          ({ s with ledger := ledger, log := log }, [BillingOutcome.debitFailed payer error])
  | Except.error _ =>
      (s, [BillingOutcome.debitFailed payer
        (PrepaidError.currencyMismatch "unpriced-kind" s.ledger.currency)])

/-- The branch of `apply` for a metered usage. -/
def applyUsage (s : SimEngine rail identityKey signature) (payer : Bytes)
    (kind : ResourceKind) (units : UInt64) :
    SimEngine rail identityKey signature × List (BillingOutcome signature) :=
  let taken := (s.meter.record payer kind units).reset payer
  { s with meter := taken.2 }.billUsage signDomain payer taken.1

/-- `apply`: the engine after the event, and what it adds to the trace. -/
def apply (s : SimEngine rail identityKey signature) :
    BillingEvent -> SimEngine rail identityKey signature × List (BillingOutcome signature)
  | BillingEvent.topUp payer amount fundingRef =>
      match s.ledger.topUp payer amount fundingRef with
      | (some record, ledger) => ({ s with ledger := ledger }, [BillingOutcome.toppedUp record])
      -- a panic; a credited reference always has a record
      | (none, _) => (s, [])
  | BillingEvent.meteredUsage payer kind units => s.applyUsage signDomain payer kind units
  | BillingEvent.tariffChange schedule =>
      ({ s with schedule := schedule }, [BillingOutcome.tariffChanged])
  | BillingEvent.refund payer amount =>
      match s.ledger.refund payer amount with
      | (Except.ok record, ledger) =>
          let s := { s with ledger := ledger }
          (s, BillingOutcome.refunded record :: s.stateNotification payer)
      | (Except.error error, _) => (s, [BillingOutcome.debitFailed payer error])
  | BillingEvent.monthlyCharge payer amount currency =>
      match rail.charge s.railState payer amount currency with
      | (Except.ok receipt, railState) =>
          ({ s with railState := railState }, [BillingOutcome.monthlyCharged receipt])
      | (Except.error e, railState) =>
          ({ s with railState := railState },
            [BillingOutcome.monthlyChargeFailed payer (rail.debug e)])

def step (s : SimEngine rail identityKey signature) (event : BillingEvent) :
    SimEngine rail identityKey signature :=
  (s.apply signDomain event).1

def replay (s : SimEngine rail identityKey signature) (events : List BillingEvent) :
    SimEngine rail identityKey signature × List (BillingOutcome signature) :=
  (Transition.after (step signDomain) s events,
    Transition.emitted (step signDomain) (fun s event => (s.apply signDomain event).2) s events)

/-!
# What the books show
-/

def recorded (payer : Bytes) (kind : ResourceKind) : BillingEvent -> Nat
  | BillingEvent.meteredUsage p k units => if p = payer ∧ k = kind then units.toNat else 0
  | _ => 0

def shownBy (payer : Bytes) (kind : ResourceKind) (r : SignedOperation signature) : Nat :=
  if r.operation.payer = payer ∧ r.operation.kind = kind then
    r.operation.meteredUnits.toNat
  else
    0

def shown (s : SimEngine rail identityKey signature) (payer : Bytes) (kind : ResourceKind) :
    Nat :=
  (s.log.receipts.map (shownBy payer kind)).sum

/-- All units recorded are shown in receipts or still in the meter. -/
def LosesNothing (s : SimEngine rail identityKey signature) (events : List BillingEvent) :
    Prop :=
  forall payer kind, (events.map (recorded payer kind)).sum =
    (s.replay signDomain events).1.shown payer kind +
      (s.replay signDomain events).1.meter.held payer kind

/-- The usage has a price, in the currency of the ledger, that the balance covers. -/
def Debits (s : SimEngine rail identityKey signature) (payer : Bytes) (kind : ResourceKind)
    (units : UInt64) : Prop :=
  exists unitPrice, s.schedule.prices.lookup kind = some unitPrice ∧
    s.schedule.currency = s.ledger.currency ∧
    (s.schedule.lineItem kind units unitPrice).amount <= s.ledger.balance payer

def Settles (s : SimEngine rail identityKey signature) : BillingEvent -> Prop
  | BillingEvent.meteredUsage payer kind units => units = 0 ∨ s.Debits payer kind units
  | _ => True

/-!
# One event
-/

theorem zero_saturatingAdd (a : UInt64) : saturatingAdd 0 a = a := by
  unfold saturatingAdd
  rw [if_pos]
  · exact UInt64.zero_add a
  · rw [UInt64.toNat_zero, Nat.zero_add]
    exact a.toNat_lt

theorem reset_record {m : InMemoryMeter} (h : m.table = ∅) (payer : Bytes)
    (kind : ResourceKind) (units : UInt64) :
    ((m.record payer kind units).reset payer).1 = FiniteMap.insertAll [(kind, units)] ∅ ∧
      ((m.record payer kind units).reset payer).2.table = ∅ := by
  have hrecord : (m.record payer kind units).table =
      (∅ : FiniteMap Bytes Usage).insert payer (FiniteMap.insertAll [(kind, units)] ∅) := by
    have husage : m.usage payer = ∅ := by
      rw [InMemoryMeter.usage, h, Finmap.lookup_empty]
      rfl
    rw [InMemoryMeter.record, husage, h, Finmap.lookup_empty, Option.getD_none,
      zero_saturatingAdd]
    rfl
  constructor
  · change ((m.record payer kind units).table.lookup payer).getD ∅ = _
    rw [hrecord, Finmap.lookup_insert, Option.getD_some]
  · change (m.record payer kind units).table.erase payer = ∅
    rw [hrecord]
    exact FiniteMap.erase_insert_of_lookup_none (Finmap.lookup_empty payer)

theorem evaluate_single (schedule : TariffSchedule) (kind : ResourceKind) (units : UInt64) :
    (schedule.evaluate (FiniteMap.insertAll [(kind, units)] ∅) :
        Except (BillingError Unit) Bill) =
      match schedule.prices.lookup kind with
      | some unitPrice => Except.ok ⟨schedule.currency,
          (schedule.lineItem kind units unitPrice).amount,
          [schedule.lineItem kind units unitPrice]⟩
      | none => Except.error (BillingError.unpricedKind kind) := by
  have horder : FiniteMap.inOrder ResourceKind.all
      (FiniteMap.insertAll [(kind, units)] ∅) = [(kind, units)] := by
    cases kind <;> rfl
  rw [TariffSchedule.evaluate, horder, TariffSchedule.evaluateLoop]
  cases schedule.prices.lookup kind with
  | none => rfl
  | some unitPrice =>
      change Except.ok (⟨schedule.currency, saturatingAdd 0 _, _⟩ : Bill) = _
      rw [zero_saturatingAdd]
      rfl

theorem debitAndReceipt_refused {l : PrepaidLedger} {payer : Bytes} {bill : Bill}
    (h : Not (bill.currency = l.currency ∧ bill.amount <= l.balance payer))
    (log : ReceiptLog (SignedOperation signature)) (ik : identityKey) :
    exists e, l.debitAndReceipt (sign signDomain) payer bill log ik = (Except.error e, l, log) := by
  unfold PrepaidLedger.debitAndReceipt PrepaidLedger.debit
  by_cases hcurrency : bill.currency = l.currency
  · have hlow : l.balance payer < bill.amount := by
      apply UInt64.not_le.mp
      intro hle
      exact h ⟨hcurrency, hle⟩
    rw [if_neg (not_not.mpr hcurrency), if_pos hlow]
    exact ⟨_, rfl⟩
  · rw [if_pos hcurrency]
    exact ⟨_, rfl⟩

theorem debitAndReceipt_paid {l : PrepaidLedger} {payer : Bytes} {bill : Bill}
    (hcurrency : bill.currency = l.currency) (henough : bill.amount <= l.balance payer)
    (log : ReceiptLog (SignedOperation signature)) (ik : identityKey) :
    exists record l', l.debitAndReceipt (sign signDomain) payer bill log ik =
      (Except.ok (record, (log.issueForBill (sign signDomain) payer bill ik).1), l',
        (log.issueForBill (sign signDomain) payer bill ik).2) := by
  unfold PrepaidLedger.debitAndReceipt PrepaidLedger.debit
  rw [if_neg (not_not.mpr hcurrency), if_neg (UInt64.not_lt.mpr henough)]
  exact ⟨_, _, rfl⟩

theorem billUsage_cases (s : SimEngine rail identityKey signature) (payer : Bytes)
    (kind : ResourceKind) (units : UInt64) {usage : Usage}
    (husage : usage = FiniteMap.insertAll [(kind, units)] ∅) :
    (s.billUsage signDomain payer usage).1.meter = s.meter ∧
      (s.Debits payer kind units ∧
          (exists r : SignedOperation signature, r.operation.payer = payer ∧
            r.operation.kind = kind ∧ r.operation.meteredUnits = units ∧
            (s.billUsage signDomain payer usage).1.log.receipts = s.log.receipts ++ [r]) ∨
        Not (s.Debits payer kind units) ∧
          (s.billUsage signDomain payer usage).1.log.receipts = s.log.receipts) := by
  unfold billUsage
  rw [husage, evaluate_single]
  cases hprice : s.schedule.prices.lookup kind with
  | none =>
      refine ⟨rfl, Or.inr ⟨?_, rfl⟩⟩
      intro hdebits
      rcases hdebits with ⟨unitPrice, hsome, _⟩
      rw [hprice] at hsome
      cases hsome
  | some unitPrice =>
      dsimp only
      by_cases hpaid : s.schedule.currency = s.ledger.currency ∧
          (s.schedule.lineItem kind units unitPrice).amount <= s.ledger.balance payer
      · rcases @debitAndReceipt_paid _ _ signDomain s.ledger payer
          ⟨s.schedule.currency, (s.schedule.lineItem kind units unitPrice).amount,
            [s.schedule.lineItem kind units unitPrice]⟩ hpaid.1 hpaid.2 s.log s.ik with
          ⟨record, l', hdebit⟩
        rw [hdebit]
        refine ⟨rfl, Or.inl ⟨⟨unitPrice, hprice, hpaid⟩, ?_⟩⟩
        exact ⟨sign signDomain (s.log.billedOperation payer _ _) s.ik, rfl, rfl, rfl, rfl⟩
      · rcases @debitAndReceipt_refused _ _ signDomain s.ledger payer
          ⟨s.schedule.currency, (s.schedule.lineItem kind units unitPrice).amount,
            [s.schedule.lineItem kind units unitPrice]⟩ hpaid s.log s.ik with ⟨e, hdebit⟩
        rw [hdebit]
        refine ⟨rfl, Or.inr ⟨?_, rfl⟩⟩
        intro hdebits
        rcases hdebits with ⟨unitPrice', hsome, hpaid'⟩
        rw [hprice] at hsome
        injection hsome with hsome
        rw [hsome] at hpaid
        exact hpaid hpaid'

theorem step_quiet {s : SimEngine rail identityKey signature} {event : BillingEvent}
    (h : forall payer kind units, event ≠ BillingEvent.meteredUsage payer kind units) :
    (s.step signDomain event).meter = s.meter ∧ (s.step signDomain event).log = s.log := by
  cases event with
  | topUp payer amount fundingRef | refund payer amount | monthlyCharge payer amount currency =>
      unfold step apply
      dsimp only
      split
      · exact ⟨rfl, rfl⟩
      · exact ⟨rfl, rfl⟩
  | meteredUsage payer kind units => exact absurd rfl (h payer kind units)
  | tariffChange schedule => exact ⟨rfl, rfl⟩

/-- What the run loses for each payer and kind on the way to a later state. -/
def Loses (s s' : SimEngine rail identityKey signature) (settled : Prop)
    (units : Bytes -> ResourceKind -> Nat) : Prop :=
  exists lost : Bytes -> ResourceKind -> Nat,
    (forall payer kind,
      s'.shown payer kind + lost payer kind = s.shown payer kind + units payer kind) ∧
    (settled <-> forall payer kind, lost payer kind = 0)

theorem recorded_eq_zero {event : BillingEvent}
    (h : forall payer kind units, event ≠ BillingEvent.meteredUsage payer kind units)
    (payer : Bytes) (kind : ResourceKind) : recorded payer kind event = 0 := by
  cases event with
  | meteredUsage p k units => exact absurd rfl (h p k units)
  | _ => rfl

theorem recorded_usage (p payer : Bytes) (k kind : ResourceKind) (units : UInt64) :
    recorded p k (BillingEvent.meteredUsage payer kind units) =
      if payer = p ∧ kind = k then units.toNat else 0 := rfl

theorem settles_of_quiet (s : SimEngine rail identityKey signature) {event : BillingEvent}
    (h : forall payer kind units, event ≠ BillingEvent.meteredUsage payer kind units) :
    s.Settles event := by
  cases event with
  | meteredUsage p k units => exact absurd rfl (h p k units)
  | _ => trivial

theorem usage_loss {s : SimEngine rail identityKey signature} (hmeter : s.meter.table = ∅)
    (payer : Bytes) (kind : ResourceKind) (units : UInt64) :
    (s.step signDomain (BillingEvent.meteredUsage payer kind units)).meter.table = ∅ ∧
      Loses s (s.step signDomain (BillingEvent.meteredUsage payer kind units))
        (s.Settles (BillingEvent.meteredUsage payer kind units))
        (fun p k => recorded p k (BillingEvent.meteredUsage payer kind units)) := by
  rcases reset_record hmeter payer kind units with ⟨htaken, hempty⟩
  rcases billUsage_cases signDomain
    { s with meter := ((s.meter.record payer kind units).reset payer).2 } payer kind units
    htaken with ⟨hmeter', hcases⟩
  have hstep : s.step signDomain (BillingEvent.meteredUsage payer kind units) =
      ({ s with meter := ((s.meter.record payer kind units).reset payer).2 }.billUsage
        signDomain payer ((s.meter.record payer kind units).reset payer).1).1 := rfl
  rw [hstep]
  constructor
  · rw [hmeter']
    exact hempty
  · rcases hcases with ⟨hdebits, r, hpayer, hkind, hunits, hlog⟩ | ⟨hrefused, hlog⟩
    · refine ⟨fun _ _ => 0, ?_, ⟨fun _ _ _ => rfl, fun _ => Or.inr hdebits⟩⟩
      intro p k
      have hshown : shownBy p k r =
          recorded p k (BillingEvent.meteredUsage payer kind units) := by
        rw [shownBy, hpayer, hkind, hunits]
        rfl
      rw [shown, hlog, List.map_append, List.sum_append, List.map_singleton,
        List.sum_singleton, hshown]
      rfl
    · refine ⟨fun p k => recorded p k (BillingEvent.meteredUsage payer kind units), ?_, ?_⟩
      · intro p k
        rw [shown, hlog]
        rfl
      · constructor
        · intro hsettles p k
          rcases hsettles with hzero | hdebits
          · dsimp only
            rw [recorded_usage, hzero]
            exact ite_self 0
          · exact absurd hdebits hrefused
        · intro hnone
          left
          have hunits : recorded payer kind (BillingEvent.meteredUsage payer kind units) = 0 :=
            hnone payer kind
          rw [recorded_usage, if_pos ⟨rfl, rfl⟩] at hunits
          exact UInt64.toNat_inj.mp hunits

theorem step_loss {s : SimEngine rail identityKey signature} (hmeter : s.meter.table = ∅)
    (event : BillingEvent) :
    (s.step signDomain event).meter.table = ∅ ∧
      Loses s (s.step signDomain event) (s.Settles event) (fun p k => recorded p k event) := by
  by_cases husage : exists payer kind units,
      event = BillingEvent.meteredUsage payer kind units
  · rcases husage with ⟨payer, kind, units, husage⟩
    rw [husage]
    exact usage_loss signDomain hmeter payer kind units
  · have hquiet : forall payer kind units,
        event ≠ BillingEvent.meteredUsage payer kind units :=
      fun payer kind units h => husage ⟨payer, kind, units, h⟩
    rcases @step_quiet _ _ _ signDomain s event hquiet with ⟨hmeter', hlog⟩
    constructor
    · rw [hmeter']
      exact hmeter
    · refine ⟨fun _ _ => 0, ?_, ⟨fun _ _ _ => rfl, fun _ => settles_of_quiet s hquiet⟩⟩
      intro p k
      dsimp only
      rw [shown, hlog, recorded_eq_zero hquiet]
      rfl

theorem run_loss {s : SimEngine rail identityKey signature} (hmeter : s.meter.table = ∅)
    (events : List BillingEvent) :
    (Transition.after (step signDomain) s events).meter.table = ∅ ∧
      Loses s (Transition.after (step signDomain) s events)
        (Transition.StepsMeet (step signDomain) Settles s events)
        (fun p k => (events.map (recorded p k)).sum) := by
  induction events generalizing s with
  | nil => exact ⟨hmeter, fun _ _ => 0, fun _ _ => rfl, ⟨fun _ _ _ => rfl, fun _ => trivial⟩⟩
  | cons event events ih =>
      rcases step_loss signDomain hmeter event with ⟨hmeter', lost, hlost, hsettles⟩
      rcases ih hmeter' with ⟨hend, lost', hlost', hsettles'⟩
      refine ⟨hend, fun p k => lost p k + lost' p k, ?_, ?_⟩
      · intro p k
        have hfirst : (s.step signDomain event).shown p k + lost p k =
            s.shown p k + recorded p k event := hlost p k
        have hrest : (Transition.after (step signDomain) (s.step signDomain event)
              events).shown p k + lost' p k =
            (s.step signDomain event).shown p k + (events.map (recorded p k)).sum :=
          hlost' p k
        change (Transition.after (step signDomain) (s.step signDomain event) events).shown p k +
            (lost p k + lost' p k) =
          s.shown p k + (recorded p k event + (events.map (recorded p k)).sum)
        omega
      · constructor
        · intro hmeet p k
          exact Nat.add_eq_zero_iff.mpr ⟨hsettles.mp hmeet.1 p k, hsettles'.mp hmeet.2 p k⟩
        · intro hnone
          constructor
          · exact hsettles.mpr fun p k => (Nat.add_eq_zero_iff.mp (hnone p k)).1
          · exact hsettles'.mpr fun p k => (Nat.add_eq_zero_iff.mp (hnone p k)).2

theorem held_of_empty {m : InMemoryMeter} (h : m.table = ∅) (payer : Bytes)
    (kind : ResourceKind) : m.held payer kind = 0 := by
  rw [InMemoryMeter.held, InMemoryMeter.usage, h, Finmap.lookup_empty]
  rfl

/--
A replay loses no usage just when every usage of some units is debited: the others are
gone from the meter before the debit is refused.
-/
theorem losesNothing_iff (ledger : PrepaidLedger) (lowBalanceThreshold : UInt64)
    (schedule : TariffSchedule) (ik : identityKey) (railState : rail.State)
    (events : List BillingEvent) :
    LosesNothing signDomain
        (new ledger lowBalanceThreshold schedule ik railState :
          SimEngine rail identityKey signature) events <->
      Transition.StepsMeet (step signDomain) Settles
        (new ledger lowBalanceThreshold schedule ik railState :
          SimEngine rail identityKey signature) events := by
  rcases @run_loss _ _ _ signDomain
    (new ledger lowBalanceThreshold schedule ik railState :
      SimEngine rail identityKey signature) rfl events with ⟨hempty, lost, hlost, hsettles⟩
  have hnew : forall payer kind, shown (new ledger lowBalanceThreshold schedule ik railState :
      SimEngine rail identityKey signature) payer kind = 0 := fun _ _ => rfl
  rw [hsettles]
  constructor
  · intro hnothing payer kind
    have hrecorded := hnothing payer kind
    have hunits := hlost payer kind
    rw [hnew] at hunits
    rw [replay, held_of_empty hempty] at hrecorded
    dsimp only at hrecorded hunits
    omega
  · intro hnone payer kind
    have hunits := hlost payer kind
    rw [hnew, hnone payer kind] at hunits
    rw [replay, held_of_empty hempty]
    dsimp only at hunits ⊢
    omega

def inMemoryRail : SettlementRail where
  State := InMemoryLedger
  Error := LedgerError
  charge := InMemoryLedger.charge
  debug := fun _ => "InsufficientBalance"

theorem no_units_lose_nothing :
    LosesNothing (fun (_ : BilledOperation) (_ : Unit) => ())
      (new (PrepaidLedger.new "EUR") 0 ⟨"EUR", ∅, ∅, none⟩ () InMemoryLedger.new :
        SimEngine inMemoryRail Unit Unit)
      [BillingEvent.meteredUsage [0x01] ResourceKind.messages 0] :=
  (losesNothing_iff _ _ _ _ _ _ _).mpr ⟨Or.inl rfl, trivial⟩

/-- One unit is metered for a payer without credit: no receipt shows it, and the meter
does not hold it any more. -/
theorem refused_usage_is_lost :
    Not (LosesNothing (fun (_ : BilledOperation) (_ : Unit) => ())
      (new (PrepaidLedger.new "EUR") 0 ⟨"EUR",
          (∅ : FiniteMap ResourceKind UInt64).insert ResourceKind.messages 7, ∅, none⟩ ()
        InMemoryLedger.new : SimEngine inMemoryRail Unit Unit)
      [BillingEvent.meteredUsage [0x01] ResourceKind.messages 1]) := by
  intro hnothing
  have h := hnothing [0x01] ResourceKind.messages
  revert h
  decide +kernel

end SimEngine

end Billing
end Ephor
