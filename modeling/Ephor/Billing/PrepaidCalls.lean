import Ephor.Billing.Prepaid

/-!
# Calls on the prepaid ledger, one at a time

The functions of `PrepaidLedger` as a caller sees them that has the ledger for itself, with room
in its logs.
-/

namespace Ephor
namespace Billing

open Foundation

namespace Prepaid

inductive BillingState where
  | ok
  | lowBalance
  | exhausted
deriving DecidableEq

namespace PrepaidLedger

/-- `state`; the threshold is the one that the ledger was created with. -/
def state (l : PrepaidLedger) (lowBalanceThreshold : UInt64) (payer : Bytes) : BillingState :=
  if l.balance payer = 0 then
    BillingState.exhausted
  else if l.balance payer <= lowBalanceThreshold then
    BillingState.lowBalance
  else
    BillingState.ok

/-- `top_up`.  A reference that was credited before has a record; there is none where the
`expect` of the source would fail. -/
def topUp (l : PrepaidLedger) (payer : Bytes) (amount : UInt64) (fundingRef : String) :
    Option TopUpRecord × PrepaidLedger :=
  if fundingRef ∈ l.creditedRefs then
    (l.topUps.find? (fun r => r.fundingRef = fundingRef), l)
  else
    let record : TopUpRecord := ⟨payer, amount, l.currency, fundingRef, l.nextTxSeq⟩
    (some record,
      { l.credit payer amount with
        topUps := l.topUps ++ [record]
        nextTxSeq := l.nextTxSeq + 1
        creditedRefs := insert fundingRef l.creditedRefs })

def debit (l : PrepaidLedger) (payer : Bytes) (bill : Bill) :
    Except PrepaidError DebitRecord × PrepaidLedger :=
  if bill.currency ≠ l.currency then
    (Except.error (PrepaidError.currencyMismatch bill.currency l.currency), l)
  else if l.balance payer < bill.amount then
    (Except.error
      (PrepaidError.exhausted payer (l.balance payer) bill.amount l.currency), l)
  else
    let record : DebitRecord := ⟨payer, bill.amount, l.currency, l.nextTxSeq⟩
    (Except.ok record,
      { l with
        balances := l.balances.insert payer (l.balance payer - bill.amount)
        debits := l.debits ++ [record]
        nextTxSeq := l.nextTxSeq + 1 })

def refund (l : PrepaidLedger) (payer : Bytes) (amount : UInt64) :
    Except PrepaidError RefundRecord × PrepaidLedger :=
  if l.balance payer < amount then
    (Except.error (PrepaidError.refundExceedsBalance payer amount (l.balance payer)), l)
  else
    let record : RefundRecord := ⟨payer, amount, l.currency, l.nextTxSeq⟩
    (Except.ok record,
      { l with
        balances := l.balances.insert payer (l.balance payer - amount)
        refunds := l.refunds ++ [record]
        nextTxSeq := l.nextTxSeq + 1 })

section Receipts

variable {identityKey usageReceipt : Type}
  (sign : BilledOperation -> identityKey -> usageReceipt)

/-- `debit_and_receipt`: what it returns, the ledger and the log. -/
def debitAndReceipt (l : PrepaidLedger) (payer : Bytes) (bill : Bill)
    (log : ReceiptLog usageReceipt) (ik : identityKey) :
    Except PrepaidError (DebitRecord × List usageReceipt) × PrepaidLedger ×
      ReceiptLog usageReceipt :=
  match l.debit payer bill with
  | (Except.error e, l') => (Except.error e, l', log)
  | (Except.ok record, l') =>
      let issued := log.issueForBill sign payer bill ik
      (Except.ok (record, issued.1), l', issued.2)

end Receipts

end PrepaidLedger

end Prepaid
end Billing
end Ephor
