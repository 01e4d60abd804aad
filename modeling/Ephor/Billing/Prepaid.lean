import Ephor.Billing.Patala

/-!
# The prepaid ledger

`PrepaidLedger` of `pier-billing`.  The balances, the three logs, the sequence
counter and the set of credited funding references each sit behind a mutex of their
own.  A call takes them one after the other, so the model runs each call as a task
that performs one lock section at a time.  Only `top_up` holds a lock across its
sections: the set of references stays locked from the test to the insertion.

A log is a `Vec`, whose allocation never exceeds `isize::MAX` bytes.  A push that
would need more does not come back.  The counter wraps, as it does in a release
build.
-/

namespace Ephor
namespace Billing

open Foundation

inductive ResourceKind where
  | bytesForwarded
  | connections
  | messages
  | computeSeconds
deriving DecidableEq

structure LineItem where
  kind : ResourceKind
  meteredUnits : UInt64
  freeUnitsApplied : UInt64
  billedUnits : UInt64
  unitPrice : UInt64
  amount : UInt64
deriving DecidableEq

structure Bill where
  currency : String
  amount : UInt64
  lineItems : List LineItem
deriving DecidableEq

structure BilledOperation where
  payer : Bytes
  kind : ResourceKind
  meteredUnits : UInt64
  billedUnits : UInt64
  amount : UInt64
  currency : String
  sequence : UInt64
deriving DecidableEq

structure ReceiptLog (usageReceipt : Type) where
  receipts : List usageReceipt
  nextSequence : UInt64
deriving DecidableEq

namespace ReceiptLog

variable {identityKey usageReceipt : Type}
  (sign : BilledOperation -> identityKey -> usageReceipt)

def new : ReceiptLog usageReceipt where
  receipts := []
  nextSequence := 0

def billedOperation (log : ReceiptLog usageReceipt) (payer : Bytes) (bill : Bill)
    (item : LineItem) : BilledOperation where
  payer := payer
  kind := item.kind
  meteredUnits := item.meteredUnits
  billedUnits := item.billedUnits
  amount := item.amount
  currency := bill.currency
  sequence := log.nextSequence

/-- The loop of `issue_for_bill`: what it returns and the log it leaves. -/
def issueItems (payer : Bytes) (bill : Bill) (ik : identityKey) :
    List LineItem -> ReceiptLog usageReceipt ->
      List usageReceipt × ReceiptLog usageReceipt
  | [], log => ([], log)
  | item :: rest, log =>
      let receipt := sign (log.billedOperation payer bill item) ik
      let (receipts, log) := issueItems payer bill ik rest
        ⟨log.receipts ++ [receipt], log.nextSequence + 1⟩
      (receipt :: receipts, log)

def issueForBill (log : ReceiptLog usageReceipt) (payer : Bytes) (bill : Bill)
    (ik : identityKey) : List usageReceipt × ReceiptLog usageReceipt :=
  issueItems sign payer bill ik bill.lineItems log

end ReceiptLog

namespace Prepaid

inductive PrepaidError where
  | currencyMismatch (billCurrency ledgerCurrency : String)
  | exhausted (payer : Bytes) (balance amount : UInt64) (currency : String)
  | refundExceedsBalance (payer : Bytes) (amount balance : UInt64)
deriving DecidableEq

structure TopUpRecord where
  payer : Bytes
  amount : UInt64
  currency : String
  fundingRef : String
  txSeq : UInt64
deriving DecidableEq

structure DebitRecord where
  payer : Bytes
  amount : UInt64
  currency : String
  txSeq : UInt64
deriving DecidableEq

structure RefundRecord where
  payer : Bytes
  amount : UInt64
  currency : String
  txSeq : UInt64
deriving DecidableEq

/-- Records of 88, 64 and 64 bytes, and at most `isize::MAX` bytes of them. -/
def maxTopUps : Nat := (2 ^ 63 - 1) / 88

def maxDebits : Nat := (2 ^ 63 - 1) / 64

def maxRefunds : Nat := (2 ^ 63 - 1) / 64

structure PrepaidLedger where
  currency : String
  balances : FiniteMap Bytes UInt64
  topUps : List TopUpRecord
  debits : List DebitRecord
  refunds : List RefundRecord
  nextTxSeq : UInt64
  creditedRefs : Finset String

namespace PrepaidLedger

def new (currency : String) : PrepaidLedger where
  currency := currency
  balances := ∅
  topUps := []
  debits := []
  refunds := []
  nextTxSeq := 0
  creditedRefs := ∅

def balance (l : PrepaidLedger) (payer : Bytes) : UInt64 :=
  (l.balances.lookup payer).getD 0

def credit (l : PrepaidLedger) (payer : Bytes) (amount : UInt64) : PrepaidLedger :=
  { l with
    balances := l.balances.insert payer (saturatingAdd (l.balance payer) amount) }

end PrepaidLedger

/-!
# Calls
-/

section Calls

variable {identityKey usageReceipt : Type}

/-- The arguments of a call; a receipt log is known by a number. -/
inductive Call (identityKey : Type) where
  | topUp (payer : Bytes) (amount : UInt64) (fundingRef : String)
  | debit (payer : Bytes) (bill : Bill)
  | debitAndReceipt (payer : Bytes) (bill : Bill) (log : Nat) (ik : identityKey)
  | refund (payer : Bytes) (amount : UInt64)
deriving DecidableEq

inductive Outcome (usageReceipt : Type) where
  | topUp (record : TopUpRecord)
  | debit (record : DebitRecord)
  | debitAndReceipt (record : DebitRecord) (receipts : List usageReceipt)
  | refund (record : RefundRecord)
deriving DecidableEq

/-- Where a call stands; each stage but the last names what it does next. -/
inductive Stage (usageReceipt : Type) where
  | lockRefs
  | findRecord
  | checkCurrency
  | balance
  | nextSeq
  | push (txSeq : UInt64)
  | insertRef (record : TopUpRecord)
  | issue (record : DebitRecord)
  | returned (result : Except PrepaidError (Outcome usageReceipt))
deriving DecidableEq

def Call.firstStage : Call identityKey -> Stage usageReceipt
  | Call.topUp _ _ _ => Stage.lockRefs
  | Call.debit _ _ => Stage.checkCurrency
  | Call.debitAndReceipt _ _ _ _ => Stage.checkCurrency
  | Call.refund _ _ => Stage.balance

/-- The ledger, who holds the lock on its references, and the receipt logs. -/
structure Books (usageReceipt : Type) where
  ledger : PrepaidLedger
  refsHeldBy : Option Nat
  receiptLogs : FiniteMap Nat (ReceiptLog usageReceipt)

/-- The section of `debit` and of `refund` under the balances. -/
def Books.spend (b : Books usageReceipt) (payer : Bytes) (amount : UInt64)
    (refusal : UInt64 -> PrepaidError) : Books usageReceipt × Stage usageReceipt :=
  if b.ledger.balance payer < amount then
    (b, Stage.returned (Except.error (refusal (b.ledger.balance payer))))
  else
    ({ b with
        ledger := { b.ledger with
          balances := b.ledger.balances.insert payer
            (b.ledger.balance payer - amount) } },
      Stage.nextSeq)

variable (sign : BilledOperation -> identityKey -> usageReceipt)

def advanceTopUp (b : Books usageReceipt) (id : Nat) (payer : Bytes)
    (amount : UInt64) (fundingRef : String) :
    Stage usageReceipt -> Books usageReceipt × Stage usageReceipt
  | Stage.lockRefs =>
      match b.refsHeldBy with
      | some _ => (b, Stage.lockRefs)
      | none =>
          if fundingRef ∈ b.ledger.creditedRefs then
            (b, Stage.findRecord)
          else
            ({ b with refsHeldBy := some id }, Stage.balance)
  | Stage.findRecord =>
      match b.ledger.topUps.find? (fun r => r.fundingRef = fundingRef) with
      | some record => (b, Stage.returned (Except.ok (Outcome.topUp record)))
      | none => (b, Stage.findRecord)
  | Stage.balance =>
      ({ b with ledger := b.ledger.credit payer amount }, Stage.nextSeq)
  | Stage.nextSeq =>
      ({ b with ledger := { b.ledger with nextTxSeq := b.ledger.nextTxSeq + 1 } },
        Stage.push b.ledger.nextTxSeq)
  | Stage.push txSeq =>
      let record : TopUpRecord :=
        ⟨payer, amount, b.ledger.currency, fundingRef, txSeq⟩
      if b.ledger.topUps.length < maxTopUps then
        ({ b with ledger := { b.ledger with topUps := b.ledger.topUps ++ [record] } },
          Stage.insertRef record)
      else
        (b, Stage.push txSeq)
  | Stage.insertRef record =>
      ({ b with
          ledger := { b.ledger with
            creditedRefs := insert fundingRef b.ledger.creditedRefs }
          refsHeldBy := none },
        Stage.returned (Except.ok (Outcome.topUp record)))
  | stage => (b, stage)

/-- One lock section of `debit`; `next` is what a successful debit does then. -/
def advanceDebit (b : Books usageReceipt) (payer : Bytes) (bill : Bill)
    (next : DebitRecord -> Stage usageReceipt) :
    Stage usageReceipt -> Books usageReceipt × Stage usageReceipt
  | Stage.checkCurrency =>
      if bill.currency ≠ b.ledger.currency then
        (b, Stage.returned (Except.error
          (PrepaidError.currencyMismatch bill.currency b.ledger.currency)))
      else
        (b, Stage.balance)
  | Stage.balance =>
      b.spend payer bill.amount fun balance =>
        PrepaidError.exhausted payer balance bill.amount b.ledger.currency
  | Stage.nextSeq =>
      ({ b with ledger := { b.ledger with nextTxSeq := b.ledger.nextTxSeq + 1 } },
        Stage.push b.ledger.nextTxSeq)
  | Stage.push txSeq =>
      let record : DebitRecord := ⟨payer, bill.amount, b.ledger.currency, txSeq⟩
      if b.ledger.debits.length < maxDebits then
        ({ b with ledger := { b.ledger with debits := b.ledger.debits ++ [record] } },
          next record)
      else
        (b, Stage.push txSeq)
  | stage => (b, stage)

/-- What `debit_and_receipt` does after the debit. -/
def issueReceipts (b : Books usageReceipt) (payer : Bytes) (bill : Bill)
    (log : Nat) (ik : identityKey) (record : DebitRecord) :
    Books usageReceipt × Stage usageReceipt :=
  let issued := ((b.receiptLogs.lookup log).getD ReceiptLog.new).issueForBill
    sign payer bill ik
  ({ b with receiptLogs := b.receiptLogs.insert log issued.2 },
    Stage.returned (Except.ok (Outcome.debitAndReceipt record issued.1)))

def advanceRefund (b : Books usageReceipt) (payer : Bytes) (amount : UInt64) :
    Stage usageReceipt -> Books usageReceipt × Stage usageReceipt
  | Stage.balance =>
      b.spend payer amount fun balance =>
        PrepaidError.refundExceedsBalance payer amount balance
  | Stage.nextSeq =>
      ({ b with ledger := { b.ledger with nextTxSeq := b.ledger.nextTxSeq + 1 } },
        Stage.push b.ledger.nextTxSeq)
  | Stage.push txSeq =>
      let record : RefundRecord := ⟨payer, amount, b.ledger.currency, txSeq⟩
      if b.ledger.refunds.length < maxRefunds then
        ({ b with ledger := { b.ledger with refunds := b.ledger.refunds ++ [record] } },
          Stage.returned (Except.ok (Outcome.refund record)))
      else
        (b, Stage.push txSeq)
  | stage => (b, stage)

def advance (b : Books usageReceipt) (id : Nat) (stage : Stage usageReceipt) :
    Call identityKey -> Books usageReceipt × Stage usageReceipt
  | Call.topUp payer amount fundingRef =>
      advanceTopUp b id payer amount fundingRef stage
  | Call.debit payer bill =>
      advanceDebit b payer bill
        (fun record => Stage.returned (Except.ok (Outcome.debit record))) stage
  | Call.debitAndReceipt payer bill log ik =>
      match stage with
      | Stage.issue record => issueReceipts sign b payer bill log ik record
      | stage => advanceDebit b payer bill Stage.issue stage
  | Call.refund payer amount => advanceRefund b payer amount stage

/-!
# Calls in any interleaving
-/

structure Task (identityKey usageReceipt : Type) where
  call : Call identityKey
  stage : Stage usageReceipt
deriving DecidableEq

structure System (identityKey usageReceipt : Type) where
  books : Books usageReceipt
  tasks : FiniteMap Nat (Task identityKey usageReceipt)

def System.start (currency : String) : System identityKey usageReceipt where
  books := ⟨PrepaidLedger.new currency, none, ∅⟩
  tasks := ∅

/-- A choice of the scheduler: a new call, or the next section of one. -/
inductive Event (identityKey : Type) where
  | spawn (id : Nat) (call : Call identityKey)
  | resume (id : Nat)

def System.step (s : System identityKey usageReceipt) :
    Event identityKey -> System identityKey usageReceipt
  | Event.spawn id call =>
      match s.tasks.lookup id with
      | none => { s with tasks := s.tasks.insert id ⟨call, call.firstStage⟩ }
      | some _ => s
  | Event.resume id =>
      match s.tasks.lookup id with
      | none => s
      | some t =>
          { books := (advance sign s.books id t.stage t.call).1
            tasks := s.tasks.insert id
              ⟨t.call, (advance sign s.books id t.stage t.call).2⟩ }

end Calls

end Prepaid
end Billing
end Ephor
