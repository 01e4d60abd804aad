import Ephor.Billing.Prepaid
import Mathlib.Tactic.Ring

/-!
# Conservation of the prepaid ledger

Whatever the interleaving, a payer's balance is what the logs say plus what the
calls in progress have moved and not logged yet.  The sequence numbers in the logs
and those that calls hold are the numbers that were given out.  The references of
the top-up log are those in the set, but for the one that its holder is about to
insert.
-/

namespace Ephor
namespace Billing
namespace Prepaid

open Foundation
open Prepaid.System
open Transition
open FiniteMap

variable {id : Nat}

section Conservation

variable {identityKey usageReceipt : Type}
  {sign : BilledOperation -> identityKey -> usageReceipt}

/-!
# One section of a call
-/

def Call.payer : Call identityKey -> Bytes
  | Call.topUp payer _ _ => payer
  | Call.debit payer _ => payer
  | Call.debitAndReceipt payer _ _ _ => payer
  | Call.refund payer _ => payer

def Call.amount : Call identityKey -> UInt64
  | Call.topUp _ amount _ => amount
  | Call.debit _ bill => bill.amount
  | Call.debitAndReceipt _ bill _ _ => bill.amount
  | Call.refund _ amount => amount

def Call.isTopUp : Call identityKey -> Bool
  | Call.topUp _ _ _ => true
  | _ => false

/-- What the call adds to its payer's balance. -/
def Call.change (c : Call identityKey) : Int :=
  if c.isTopUp then c.amount.toNat else -(c.amount.toNat : Int)

inductive Moves (b : Books usageReceipt) (id : Nat) (c : Call identityKey) :
    Stage usageReceipt -> Books usageReceipt -> Stage usageReceipt -> Prop where
  | stays (stage : Stage usageReceipt) : Moves b id c stage b stage
  | refused {stage : Stage usageReceipt} (e : PrepaidError) :
      c.isTopUp = false -> stage = Stage.checkCurrency ∨ stage = Stage.balance ->
      Moves b id c stage b (Stage.returned (Except.error e))
  | checked : c.isTopUp = false ->
      Moves b id c Stage.checkCurrency b Stage.balance
  | replayed (payer : Bytes) (amount : UInt64) (fundingRef : String) :
      c = Call.topUp payer amount fundingRef ->
      Moves b id c Stage.lockRefs b Stage.findRecord
  | locked (payer : Bytes) (amount : UInt64) (fundingRef : String) :
      c = Call.topUp payer amount fundingRef -> b.refsHeldBy = none ->
      fundingRef ∉ b.ledger.creditedRefs ->
      Moves b id c Stage.lockRefs { b with refsHeldBy := some id } Stage.balance
  | found (payer : Bytes) (amount : UInt64) (fundingRef : String)
      (record : TopUpRecord) :
      c = Call.topUp payer amount fundingRef -> record ∈ b.ledger.topUps ->
      record.fundingRef = fundingRef ->
      Moves b id c Stage.findRecord b
        (Stage.returned (Except.ok (Outcome.topUp record)))
  | credited (payer : Bytes) (amount : UInt64) (fundingRef : String) :
      c = Call.topUp payer amount fundingRef ->
      Moves b id c Stage.balance { b with ledger := b.ledger.credit payer amount }
        Stage.nextSeq
  | spent : c.isTopUp = false -> c.amount <= b.ledger.balance c.payer ->
      Moves b id c Stage.balance
        { b with
          ledger := { b.ledger with
            balances := b.ledger.balances.insert c.payer
              (b.ledger.balance c.payer - c.amount) } }
        Stage.nextSeq
  | sequenced :
      Moves b id c Stage.nextSeq
        { b with ledger := { b.ledger with nextTxSeq := b.ledger.nextTxSeq + 1 } }
        (Stage.push b.ledger.nextTxSeq)
  | pushedTopUp (payer : Bytes) (amount : UInt64) (fundingRef : String)
      (txSeq : UInt64) :
      c = Call.topUp payer amount fundingRef ->
      b.ledger.topUps.length < maxTopUps ->
      Moves b id c (Stage.push txSeq)
        { b with
          ledger := { b.ledger with
            topUps := b.ledger.topUps ++
              [⟨payer, amount, b.ledger.currency, fundingRef, txSeq⟩] } }
        (Stage.insertRef ⟨payer, amount, b.ledger.currency, fundingRef, txSeq⟩)
  | pushedDebit (txSeq : UInt64) (next : Stage usageReceipt) :
      c.isTopUp = false -> b.ledger.debits.length < maxDebits ->
      next = Stage.issue ⟨c.payer, c.amount, b.ledger.currency, txSeq⟩ ∨
        next = Stage.returned (Except.ok
          (Outcome.debit ⟨c.payer, c.amount, b.ledger.currency, txSeq⟩)) ->
      Moves b id c (Stage.push txSeq)
        { b with
          ledger := { b.ledger with
            debits := b.ledger.debits ++
              [⟨c.payer, c.amount, b.ledger.currency, txSeq⟩] } }
        next
  | pushedRefund (txSeq : UInt64) :
      c.isTopUp = false -> b.ledger.refunds.length < maxRefunds ->
      Moves b id c (Stage.push txSeq)
        { b with
          ledger := { b.ledger with
            refunds := b.ledger.refunds ++
              [⟨c.payer, c.amount, b.ledger.currency, txSeq⟩] } }
        (Stage.returned (Except.ok
          (Outcome.refund ⟨c.payer, c.amount, b.ledger.currency, txSeq⟩)))
  | inserted (payer : Bytes) (amount : UInt64) (fundingRef : String)
      (record : TopUpRecord) :
      c = Call.topUp payer amount fundingRef ->
      Moves b id c (Stage.insertRef record)
        { b with
          ledger := { b.ledger with
            creditedRefs := insert fundingRef b.ledger.creditedRefs }
          refsHeldBy := none }
        (Stage.returned (Except.ok (Outcome.topUp record)))
  | issued (record : DebitRecord) (logs : FiniteMap Nat (ReceiptLog usageReceipt))
      (receipts : List usageReceipt) : c.isTopUp = false ->
      Moves b id c (Stage.issue record) { b with receiptLogs := logs }
        (Stage.returned (Except.ok (Outcome.debitAndReceipt record receipts)))

theorem moves_advanceTopUp (b : Books usageReceipt) (id : Nat) (payer : Bytes)
    (amount : UInt64) (fundingRef : String) (stage : Stage usageReceipt) :
    Moves b id (Call.topUp payer amount fundingRef : Call identityKey) stage
      (advanceTopUp b id payer amount fundingRef stage).1
      (advanceTopUp b id payer amount fundingRef stage).2 := by
  cases stage with
  | lockRefs =>
      rw [advanceTopUp]
      split
      · exact Moves.stays Stage.lockRefs
      · rename_i hfree
        split
        · exact Moves.replayed payer amount fundingRef rfl
        · rename_i hfresh
          exact Moves.locked payer amount fundingRef rfl hfree hfresh
  | findRecord =>
      rw [advanceTopUp]
      split
      · rename_i record hfind
        refine Moves.found payer amount fundingRef record rfl
          (List.mem_of_find?_eq_some hfind) ?_
        have htest := List.find?_some hfind
        exact of_decide_eq_true htest
      · exact Moves.stays Stage.findRecord
  | balance => exact Moves.credited payer amount fundingRef rfl
  | nextSeq => exact Moves.sequenced
  | push txSeq =>
      rw [advanceTopUp]
      dsimp only
      split
      · rename_i hroom
        exact Moves.pushedTopUp payer amount fundingRef txSeq rfl hroom
      · exact Moves.stays (Stage.push txSeq)
  | insertRef record => exact Moves.inserted payer amount fundingRef record rfl
  | _ => exact Moves.stays _

variable {b b' : Books usageReceipt} {c : Call identityKey} {stage stage' : Stage usageReceipt}
    {tasks : FiniteMap Nat (Task identityKey usageReceipt)} {s : System identityKey usageReceipt}

theorem moves_spend (hc : c.isTopUp = false) (refusal : UInt64 -> PrepaidError) :
    Moves b id c Stage.balance (b.spend c.payer c.amount refusal).1
      (b.spend c.payer c.amount refusal).2 := by
  unfold Books.spend
  split
  · exact Moves.refused _ hc (Or.inr rfl)
  · rename_i henough
    exact Moves.spent hc (UInt64.not_lt.mp henough)

theorem moves_advanceDebit (b : Books usageReceipt) (id : Nat) (hc : c.isTopUp = false)
    (bill : Bill) (hbill : bill.amount = c.amount) {next : DebitRecord -> Stage usageReceipt}
    (hnext : forall record, next record = Stage.issue record ∨
      next record = Stage.returned (Except.ok (Outcome.debit record)))
    (stage : Stage usageReceipt) :
    Moves b id c stage (advanceDebit b c.payer bill next stage).1
      (advanceDebit b c.payer bill next stage).2 := by
  cases stage with
  | checkCurrency =>
      rw [advanceDebit]
      split
      · exact Moves.refused _ hc (Or.inl rfl)
      · exact Moves.checked hc
  | balance =>
      rw [advanceDebit, hbill]
      exact moves_spend hc _
  | nextSeq => exact Moves.sequenced
  | push txSeq =>
      rw [advanceDebit, hbill]
      dsimp only
      split
      · rename_i hroom
        exact Moves.pushedDebit txSeq _ hc hroom (hnext _)
      · exact Moves.stays (Stage.push txSeq)
  | _ => exact Moves.stays _

theorem moves_advanceRefund (b : Books usageReceipt) (id : Nat) (payer : Bytes)
    (amount : UInt64) (stage : Stage usageReceipt) :
    Moves b id (Call.refund payer amount : Call identityKey) stage
      (advanceRefund b payer amount stage).1
      (advanceRefund b payer amount stage).2 := by
  cases stage with
  | balance =>
      exact moves_spend (c := Call.refund payer amount) rfl _
  | nextSeq => exact Moves.sequenced
  | push txSeq =>
      rw [advanceRefund]
      dsimp only
      split
      · rename_i hroom
        exact Moves.pushedRefund (c := Call.refund payer amount) txSeq rfl hroom
      · exact Moves.stays (Stage.push txSeq)
  | _ => exact Moves.stays _

theorem moves_advance (b : Books usageReceipt) (id : Nat)
    (stage : Stage usageReceipt) (c : Call identityKey) :
    Moves b id c stage (advance sign b id stage c).1 (advance sign b id stage c).2 := by
  cases c with
  | topUp payer amount fundingRef => exact moves_advanceTopUp b id payer amount fundingRef stage
  | debit payer bill =>
      exact moves_advanceDebit b id (c := Call.debit payer bill) rfl bill rfl
        (fun _ => Or.inr rfl) stage
  | debitAndReceipt payer bill log ik =>
      cases stage with
      | issue record => exact Moves.issued record _ _ rfl
      | _ =>
          exact moves_advanceDebit b id (c := Call.debitAndReceipt payer bill log ik) rfl
            bill rfl (fun _ => Or.inl rfl) _
  | refund payer amount => exact moves_advanceRefund b id payer amount stage

/-!
# What the logs say
-/

def amountFor (payer : Bytes) (entries : List (Bytes × UInt64)) : Int :=
  ((entries.filter fun e => e.1 = payer).map fun e => (e.2.toNat : Int)).sum

theorem amountFor_snoc (payer : Bytes) (entries : List (Bytes × UInt64))
    (e : Bytes × UInt64) :
    amountFor payer (entries ++ [e]) =
      amountFor payer entries + if e.1 = payer then (e.2.toNat : Int) else 0 := by
  unfold amountFor
  rw [List.filter_append, List.map_append, List.sum_append]
  split
  · rename_i heq
    simp [heq]
  · rename_i hne
    simp [hne]

namespace PrepaidLedger

def topUpTotal (l : PrepaidLedger) (payer : Bytes) : Int :=
  amountFor payer (l.topUps.map fun r => (r.payer, r.amount))

def debitTotal (l : PrepaidLedger) (payer : Bytes) : Int :=
  amountFor payer (l.debits.map fun r => (r.payer, r.amount))

def refundTotal (l : PrepaidLedger) (payer : Bytes) : Int :=
  amountFor payer (l.refunds.map fun r => (r.payer, r.amount))

def logged (l : PrepaidLedger) (payer : Bytes) : Int :=
  l.topUpTotal payer - l.debitTotal payer - l.refundTotal payer

def txSeqs (l : PrepaidLedger) : List UInt64 :=
  l.topUps.map TopUpRecord.txSeq ++ l.debits.map DebitRecord.txSeq ++
    l.refunds.map RefundRecord.txSeq

theorem logged_topUp (l : PrepaidLedger) (r : TopUpRecord) (payer : Bytes) :
    logged { l with topUps := l.topUps ++ [r] } payer =
      l.logged payer + if r.payer = payer then (r.amount.toNat : Int) else 0 := by
  unfold logged topUpTotal
  rw [List.map_append]
  change amountFor payer (_ ++ [(r.payer, r.amount)]) - _ - _ = _
  rw [amountFor_snoc]
  unfold debitTotal refundTotal
  ring

theorem logged_debit (l : PrepaidLedger) (r : DebitRecord) (payer : Bytes) :
    logged { l with debits := l.debits ++ [r] } payer =
      l.logged payer - if r.payer = payer then (r.amount.toNat : Int) else 0 := by
  unfold logged debitTotal
  rw [List.map_append]
  change _ - amountFor payer (_ ++ [(r.payer, r.amount)]) - _ = _
  rw [amountFor_snoc]
  unfold topUpTotal refundTotal
  ring

theorem logged_refund (l : PrepaidLedger) (r : RefundRecord) (payer : Bytes) :
    logged { l with refunds := l.refunds ++ [r] } payer =
      l.logged payer - if r.payer = payer then (r.amount.toNat : Int) else 0 := by
  unfold logged refundTotal
  rw [List.map_append]
  change _ - _ - amountFor payer (_ ++ [(r.payer, r.amount)]) = _
  rw [amountFor_snoc]
  unfold topUpTotal debitTotal
  ring

theorem balance_insert (l : PrepaidLedger) (payer payer' : Bytes) (amount : UInt64) :
    balance { l with balances := l.balances.insert payer amount } payer' =
      if payer = payer' then amount else l.balance payer' := by
  unfold balance
  split
  · rename_i heq
    rw [heq, Finmap.lookup_insert]
    rfl
  · rename_i hne
    rw [Finmap.lookup_insert_of_ne _ (Ne.symm hne)]

theorem balance_credit (l : PrepaidLedger) (payer payer' : Bytes) {amount : UInt64}
    (hfits : (l.balance payer).toNat + amount.toNat < 2 ^ 64) :
    ((l.credit payer amount).balance payer').toNat =
      (l.balance payer').toNat + if payer = payer' then amount.toNat else 0 := by
  unfold credit
  rw [balance_insert]
  split
  · rename_i heq
    rw [<- heq, saturatingAdd, if_pos hfits, UInt64.toNat_add, Nat.mod_eq_of_lt hfits]
  · rfl

theorem balance_spent (l : PrepaidLedger) (payer payer' : Bytes) {amount : UInt64}
    (henough : amount <= l.balance payer) :
    ((balance { l with
        balances := l.balances.insert payer (l.balance payer - amount) } payer').toNat : Int) =
      (l.balance payer').toNat - if payer = payer' then (amount.toNat : Int) else 0 := by
  rw [balance_insert]
  split
  · rename_i heq
    rw [<- heq, UInt64.toNat_sub_of_le _ _ henough,
      Int.ofNat_sub (UInt64.le_iff_toNat_le.mp henough)]
  · rw [sub_zero]

end PrepaidLedger

/-!
# What the calls in progress carry
-/

/-- The balance has moved and the record is not in its log yet. -/
def Stage.unlogged : Stage usageReceipt -> Bool
  | Stage.nextSeq => true
  | Stage.push _ => true
  | _ => false

/-- How far the call in progress has moved the payer's balance unlogged. -/
def Task.carries (payer : Bytes) (t : Task identityKey usageReceipt) : Int :=
  if t.stage.unlogged ∧ t.call.payer = payer then t.call.change else 0

/-- One when the call holds the sequence number. -/
def Task.holds (txSeq : UInt64) (t : Task identityKey usageReceipt) : Int :=
  match t.stage with
  | Stage.push v => if v = txSeq then 1 else 0
  | _ => 0

/-- The balance that a section adds, if it adds one. -/
def System.creditOf (s : System identityKey usageReceipt) :
    Event identityKey -> Option (Bytes × UInt64)
  | Event.spawn _ _ => none
  | Event.resume id =>
      match s.tasks.lookup id with
      | some ⟨Call.topUp payer amount _, Stage.balance⟩ => some (payer, amount)
      | _ => none

def System.CreditFits (s : System identityKey usageReceipt)
    (e : Event identityKey) : Prop :=
  forall credit, credit ∈ s.creditOf e ->
    (s.books.ledger.balance credit.1).toNat + credit.2.toNat < 2 ^ 64

instance (s : System identityKey usageReceipt) (e : Event identityKey) :
    Decidable (s.CreditFits e) :=
  inferInstanceAs (Decidable (forall credit, credit ∈ s.creditOf e -> _))

theorem carries_of_logged (h : stage.unlogged = false) (payer : Bytes) (c : Call identityKey) :
    Task.carries payer ⟨c, stage⟩ = 0 := by
  simp [Task.carries, h]

theorem carries_of_unlogged (h : stage.unlogged = true) (payer : Bytes) (c : Call identityKey) :
    Task.carries payer ⟨c, stage⟩ = if c.payer = payer then c.change else 0 := by
  simp [Task.carries, h]

theorem carries_of_topUp (h : stage.unlogged = true) (who : Bytes) (amount : UInt64)
    (fundingRef : String) (payer : Bytes) :
    Task.carries payer ⟨(Call.topUp who amount fundingRef : Call identityKey), stage⟩ =
      if who = payer then (amount.toNat : Int) else 0 :=
  carries_of_unlogged h payer (Call.topUp who amount fundingRef)

theorem carries_of_spend (h : stage.unlogged = true) (hc : c.isTopUp = false) (payer : Bytes) :
    Task.carries payer ⟨c, stage⟩ =
      -(if c.payer = payer then (c.amount.toNat : Int) else 0) := by
  rw [carries_of_unlogged h, Call.change, hc]
  split
  · rfl
  · rfl

theorem accounted_moves (h : Moves b id c stage b' stage')
    (hfits : forall payer amount fundingRef,
      c = Call.topUp payer amount fundingRef -> stage = Stage.balance ->
        (b.ledger.balance payer).toNat + amount.toNat < 2 ^ 64) (payer : Bytes) :
    ((b'.ledger.balance payer).toNat : Int) - b'.ledger.logged payer -
        Task.carries payer ⟨c, stage'⟩ =
      (b.ledger.balance payer).toNat - b.ledger.logged payer -
        Task.carries payer ⟨c, stage⟩ := by
  cases h with
  | stays => rfl
  | refused e _ hstage =>
      rcases hstage with hstage | hstage
      · rw [hstage, carries_of_logged rfl, carries_of_logged rfl]
      · rw [hstage, carries_of_logged rfl, carries_of_logged rfl]
  | checked | replayed | locked | found => rw [carries_of_logged rfl, carries_of_logged rfl]
  | credited who amount fundingRef hc =>
      have hbalance := PrepaidLedger.balance_credit b.ledger who payer
        (hfits who amount fundingRef hc rfl)
      have hlogged : (b.ledger.credit who amount).logged payer = b.ledger.logged payer := rfl
      rw [hc, carries_of_topUp rfl, carries_of_logged rfl, hlogged]
      dsimp only
      rw [hbalance]
      split
      · omega
      · omega
  | spent hc henough =>
      have hbalance := PrepaidLedger.balance_spent b.ledger c.payer payer henough
      rw [carries_of_spend rfl hc, carries_of_logged rfl, hbalance]
      change _ - _ - b.ledger.logged payer - _ = _
      ring
  | sequenced =>
      rw [carries_of_unlogged rfl, carries_of_unlogged rfl]
      rfl
  | pushedTopUp who amount fundingRef txSeq hc _ =>
      rw [hc, carries_of_logged rfl, carries_of_topUp rfl, PrepaidLedger.logged_topUp]
      change ((b.ledger.balance payer).toNat : Int) - _ - 0 = _
      ring
  | pushedDebit txSeq _ hc _ hnext =>
      have hdone : stage'.unlogged = false := by
        rcases hnext with hnext | hnext
        · rw [hnext]
          rfl
        · rw [hnext]
          rfl
      rw [carries_of_logged hdone, carries_of_spend rfl hc, PrepaidLedger.logged_debit]
      change ((b.ledger.balance payer).toNat : Int) - _ - 0 = _
      ring
  | pushedRefund txSeq hc _ =>
      rw [carries_of_logged rfl, carries_of_spend rfl hc, PrepaidLedger.logged_refund]
      change ((b.ledger.balance payer).toNat : Int) - _ - 0 = _
      ring
  | inserted =>
      rw [carries_of_logged rfl, carries_of_logged rfl]
      rfl
  | issued =>
      rw [carries_of_logged rfl, carries_of_logged rfl]

theorem holds_moves (h : Moves b id c stage b' stage') :
    (b'.ledger.nextTxSeq = b.ledger.nextTxSeq ∧
      forall v, (b'.ledger.txSeqs.count v : Int) + Task.holds v ⟨c, stage'⟩ =
        b.ledger.txSeqs.count v + Task.holds v ⟨c, stage⟩) ∨
    (b'.ledger.nextTxSeq = b.ledger.nextTxSeq + 1 ∧
      forall v, (b'.ledger.txSeqs.count v : Int) + Task.holds v ⟨c, stage'⟩ =
        b.ledger.txSeqs.count v + Task.holds v ⟨c, stage⟩ +
          if b.ledger.nextTxSeq = v then 1 else 0) := by
  cases h with
  | stays | checked | replayed | locked | found | credited | spent | inserted | issued =>
      exact Or.inl ⟨rfl, fun _ => rfl⟩
  | refused e _ hstage =>
      rcases hstage with hstage | hstage
      · rw [hstage]
        exact Or.inl ⟨rfl, fun _ => rfl⟩
      · rw [hstage]
        exact Or.inl ⟨rfl, fun _ => rfl⟩
  | sequenced =>
      refine Or.inr ⟨rfl, ?_⟩
      intro v
      simp [Task.holds, PrepaidLedger.txSeqs]
  | pushedTopUp who amount fundingRef txSeq hc _ | pushedRefund txSeq hc _ =>
      refine Or.inl ⟨rfl, ?_⟩
      intro v
      simp [Task.holds, PrepaidLedger.txSeqs, List.count_cons]
      ring
  | pushedDebit txSeq _ hc _ hnext =>
      refine Or.inl ⟨rfl, ?_⟩
      intro v
      rcases hnext with hnext | hnext
      all_goals
        simp [hnext, Task.holds, PrepaidLedger.txSeqs, List.count_cons]
        ring

structure Allocated (l : PrepaidLedger) : Prop where
  topUps : l.topUps.length <= maxTopUps
  debits : l.debits.length <= maxDebits
  refunds : l.refunds.length <= maxRefunds

theorem allocated_moves (h : Moves b id c stage b' stage') (hb : Allocated b.ledger) :
    Allocated b'.ledger := by
  cases h with
  | pushedTopUp who amount fundingRef txSeq hc hroom =>
      refine ⟨?_, hb.debits, hb.refunds⟩
      rw [List.length_append]
      exact hroom
  | pushedDebit txSeq _ hc hroom hnext =>
      refine ⟨hb.topUps, ?_, hb.refunds⟩
      rw [List.length_append]
      exact hroom
  | pushedRefund txSeq hc hroom =>
      refine ⟨hb.topUps, hb.debits, ?_⟩
      rw [List.length_append]
      exact hroom
  | credited | spent | sequenced | inserted => exact ⟨hb.topUps, hb.debits, hb.refunds⟩
  | _ => exact hb

/-!
# Who holds the references
-/

def PrepaidLedger.fundingRefs (l : PrepaidLedger) : List String :=
  l.topUps.map TopUpRecord.fundingRef

def TopUpKnows (b : Books usageReceipt) (id : Nat) (fundingRef : String) :
    Stage usageReceipt -> Prop
  | Stage.balance => b.refsHeldBy = some id ∧ fundingRef ∉ b.ledger.fundingRefs
  | Stage.nextSeq => b.refsHeldBy = some id ∧ fundingRef ∉ b.ledger.fundingRefs
  | Stage.push _ => b.refsHeldBy = some id ∧ fundingRef ∉ b.ledger.fundingRefs
  | Stage.insertRef record =>
      b.refsHeldBy = some id ∧ record ∈ b.ledger.topUps ∧ record.fundingRef = fundingRef
  | Stage.returned result =>
      exists record, record ∈ b.ledger.topUps ∧ record.fundingRef = fundingRef ∧
        result = Except.ok (Outcome.topUp record)
  | _ => True

theorem topUpKnows_moves {payer : Bytes} {amount : UInt64} {fundingRef : String}
    (h : Moves b id (Call.topUp payer amount fundingRef : Call identityKey) stage b' stage')
    (hcovered : b.refsHeldBy = none ->
      forall r, r ∈ b.ledger.fundingRefs -> r ∈ b.ledger.creditedRefs)
    (hown : TopUpKnows b id fundingRef stage) : TopUpKnows b' id fundingRef stage' := by
  cases h with
  | stays | credited | sequenced => exact hown
  | refused e hfalse _ | checked hfalse | spent hfalse _ | pushedDebit txSeq _ hfalse _ _
  | pushedRefund txSeq hfalse _ | issued record logs receipts hfalse => cases hfalse
  | replayed => trivial
  | locked _ _ _ hc hfree hfresh =>
      cases hc
      refine ⟨rfl, ?_⟩
      intro hmem
      exact hfresh (hcovered hfree fundingRef hmem)
  | found _ _ _ record hc hmem href =>
      cases hc
      exact ⟨record, hmem, href, rfl⟩
  | pushedTopUp _ _ _ txSeq hc _ =>
      cases hc
      exact ⟨hown.1, List.mem_append_right _ List.mem_cons_self, rfl⟩
  | inserted _ _ _ record hc =>
      exact ⟨record, hown.2.1, hown.2.2, rfl⟩

theorem refsHeld_moves {j : Nat} (h : Moves b id c stage b' stage') (hj : j ≠ id)
    (hown : forall payer amount fundingRef,
      c = Call.topUp payer amount fundingRef -> TopUpKnows b id fundingRef stage)
    (hheld : b.refsHeldBy = some j) :
    b'.refsHeldBy = some j ∧ b'.ledger.fundingRefs = b.ledger.fundingRefs := by
  have hother : b.refsHeldBy ≠ some id := by
    rw [hheld]
    intro heq
    exact hj (Option.some.inj heq)
  cases h with
  | locked _ _ _ _ hfree _ =>
      rw [hfree] at hheld
      cases hheld
  | pushedTopUp who amount fundingRef txSeq hc _ | inserted who amount fundingRef record hc =>
      exact absurd (hown who amount fundingRef hc).1 hother
  | _ => exact ⟨hheld, rfl⟩

theorem topUps_subset_moves (h : Moves b id c stage b' stage') {record : TopUpRecord}
    (hmem : record ∈ b.ledger.topUps) : record ∈ b'.ledger.topUps := by
  cases h with
  | pushedTopUp => exact List.mem_append_left _ hmem
  | _ => exact hmem

theorem topUpKnows_other {j : Nat} {other : Stage usageReceipt}
    (h : Moves b id c stage b' stage') (hj : j ≠ id)
    (hown : forall payer amount fundingRef,
      c = Call.topUp payer amount fundingRef -> TopUpKnows b id fundingRef stage)
    {fundingRef : String} (hother : TopUpKnows b j fundingRef other) :
    TopUpKnows b' j fundingRef other := by
  have hcrediting : b.refsHeldBy = some j ∧ fundingRef ∉ b.ledger.fundingRefs ->
      b'.refsHeldBy = some j ∧ fundingRef ∉ b'.ledger.fundingRefs := by
    intro hcase
    rcases refsHeld_moves h hj hown hcase.1 with ⟨hheld, hrefs⟩
    rw [hrefs]
    exact ⟨hheld, hcase.2⟩
  cases other with
  | balance | nextSeq | push txSeq => exact hcrediting hother
  | insertRef record =>
      exact ⟨(refsHeld_moves h hj hown hother.1).1,
        topUps_subset_moves h hother.2.1, hother.2.2⟩
  | returned result =>
      rcases hother with ⟨record, hmem, href, hresult⟩
      exact ⟨record, topUps_subset_moves h hmem, href, hresult⟩
  | lockRefs | findRecord | checkCurrency | issue record => trivial

/-- The holder of the lock has logged the reference and is about to insert it. -/
def Inserting (b : Books usageReceipt) (tasks : FiniteMap Nat (Task identityKey usageReceipt))
    (fundingRef : String) : Prop :=
  exists id t record, b.refsHeldBy = some id ∧ tasks.lookup id = some t ∧
    t.stage = Stage.insertRef record ∧ record.fundingRef = fundingRef

/-- Every reference of the top-up log is in the set, or about to be. -/
def Covered (b : Books usageReceipt)
    (tasks : FiniteMap Nat (Task identityKey usageReceipt)) : Prop :=
  forall r, r ∈ b.ledger.fundingRefs -> r ∈ b.ledger.creditedRefs ∨ Inserting b tasks r

theorem covered_of_free (h : Covered b tasks) (hfree : b.refsHeldBy = none) :
    forall r, r ∈ b.ledger.fundingRefs -> r ∈ b.ledger.creditedRefs := by
  intro r hr
  rcases h r hr with hin | ⟨id, t, record, hheld, _⟩
  · exact hin
  · rw [hfree] at hheld
    cases hheld

theorem covered_of_held (h : Covered b tasks) (hheld : b.refsHeldBy = some id)
    (ht : tasks.lookup id = some ⟨c, stage⟩) :
    forall r, r ∈ b.ledger.fundingRefs -> r ∈ b.ledger.creditedRefs ∨
      exists record, stage = Stage.insertRef record ∧ record.fundingRef = r := by
  intro r hr
  rcases h r hr with hin | ⟨j, t, record, hj, htj, hinsert, href⟩
  · exact Or.inl hin
  · rw [hheld] at hj
    injection hj with hj
    rw [<- hj, ht] at htj
    injection htj with htj
    rw [<- htj] at hinsert
    exact Or.inr ⟨record, hinsert, href⟩

theorem covered_same (h : Covered b tasks) (ht : tasks.lookup id = some ⟨c, stage⟩)
    (hrefs : b'.ledger.fundingRefs = b.ledger.fundingRefs)
    (hset : b'.ledger.creditedRefs = b.ledger.creditedRefs) (hheld : b'.refsHeldBy = b.refsHeldBy)
    (hstage : forall record, stage = Stage.insertRef record -> stage' = stage) :
    Covered b' (tasks.insert id ⟨c, stage'⟩) := by
  intro r hr
  rw [hrefs] at hr
  rcases h r hr with hin | ⟨j, t, record, hj, htj, hinsert, href⟩
  · rw [hset]
    exact Or.inl hin
  · apply Or.inr
    by_cases heq : j = id
    · rw [heq, ht] at htj
      injection htj with htj
      rw [<- htj] at hinsert
      refine ⟨id, ⟨c, stage'⟩, record, ?_, Finmap.lookup_insert _, ?_, href⟩
      · rw [hheld, hj, heq]
      · exact (hstage record hinsert).trans hinsert
    · refine ⟨j, t, record, ?_, ?_, hinsert, href⟩
      · rw [hheld, hj]
      · rw [Finmap.lookup_insert_of_ne _ heq]
        exact htj

theorem covered_moves (hmoves : Moves b id c stage b' stage') (h : Covered b tasks)
    (ht : tasks.lookup id = some ⟨c, stage⟩)
    (hown : forall payer amount fundingRef,
      c = Call.topUp payer amount fundingRef -> TopUpKnows b id fundingRef stage) :
    Covered b' (tasks.insert id ⟨c, stage'⟩) := by
  cases hmoves with
  | stays => exact covered_same h ht rfl rfl rfl (fun _ _ => rfl)
  | refused e _ hstage =>
      apply covered_same h ht rfl rfl rfl
      intro record hinsert
      rcases hstage with hstage | hstage
      · rw [hstage] at hinsert
        cases hinsert
      · rw [hstage] at hinsert
        cases hinsert
  | locked _ _ _ _ hfree _ =>
      intro r hr
      exact Or.inl (covered_of_free h hfree r hr)
  | pushedTopUp who amount fundingRef txSeq hc _ =>
      have hheld := (hown who amount fundingRef hc).1
      intro r hr
      rw [PrepaidLedger.fundingRefs, List.map_append] at hr
      rcases List.mem_append.mp hr with hold | hnew
      · rcases covered_of_held h hheld ht r hold with hin | ⟨record, hinsert, _⟩
        · exact Or.inl hin
        · cases hinsert
      · refine Or.inr ⟨id, _, _, hheld, Finmap.lookup_insert _, rfl, ?_⟩
        exact (List.mem_singleton.mp hnew).symm
  | inserted who amount fundingRef record hc =>
      rcases hown who amount fundingRef hc with ⟨hheld, _, href⟩
      intro r hr
      apply Or.inl
      rcases covered_of_held h hheld ht r hr with hin | ⟨record', hinsert, href'⟩
      · exact Finset.mem_insert_of_mem hin
      · injection hinsert with hinsert
        rw [<- href', <- hinsert, href]
        exact Finset.mem_insert_self _ _
  | _ =>
      apply covered_same h ht rfl rfl rfl
      intro record hinsert
      cases hinsert

theorem nodup_moves (h : Moves b id c stage b' stage') (hnodup : b.ledger.fundingRefs.Nodup)
    (hown : forall payer amount fundingRef,
      c = Call.topUp payer amount fundingRef -> TopUpKnows b id fundingRef stage) :
    b'.ledger.fundingRefs.Nodup := by
  cases h with
  | pushedTopUp who amount fundingRef txSeq hc _ =>
      rw [PrepaidLedger.fundingRefs, List.map_append]
      apply List.nodup_append'.mpr
      refine ⟨hnodup, List.nodup_singleton _, ?_⟩
      intro r hr hnew
      rw [List.mem_singleton.mp hnew] at hr
      exact (hown who amount fundingRef hc).2 hr
  | _ => exact hnodup

/-!
# Whole runs
-/

structure Conserved (s : System identityKey usageReceipt) : Prop where
  balance : forall payer,
    ((s.books.ledger.balance payer).toNat : Int) - s.books.ledger.logged payer =
      sumBy (fun _ t => t.carries payer) s.tasks
  sequence : exists n, s.books.ledger.nextTxSeq = UInt64.ofNat n ∧
    forall v, (s.books.ledger.txSeqs.count v : Int) +
        sumBy (fun _ t => t.holds v) s.tasks =
      ((List.range n).map UInt64.ofNat).count v
  allocated : Allocated s.books.ledger
  nodup : s.books.ledger.fundingRefs.Nodup
  covered : Covered s.books s.tasks
  knows : forall id t payer amount fundingRef, s.tasks.lookup id = some t ->
    t.call = Call.topUp payer amount fundingRef ->
      TopUpKnows s.books id fundingRef t.stage

theorem conserved_start (currency : String) :
    Conserved (start currency : System identityKey usageReceipt) := by
  refine ⟨?_, ⟨0, rfl, ?_⟩, ?_, List.nodup_nil, ?_, ?_⟩
  · intro payer
    rfl
  · intro v
    rfl
  · exact ⟨Nat.zero_le _, Nat.zero_le _, Nat.zero_le _⟩
  · intro r hr
    cases hr
  · intro id t payer amount fundingRef ht
    cases ht

theorem conserved_spawn (h : Conserved s) (call : Call identityKey)
    (hnone : s.tasks.lookup id = none) :
    Conserved ⟨s.books, s.tasks.insert id ⟨call, call.firstStage⟩⟩ := by
  have hother : forall {j t}, s.tasks.lookup j = some t ->
      (s.tasks.insert id ⟨call, call.firstStage⟩).lookup j = some t := by
    intro j t ht
    have hj : j ≠ id := by
      intro heq
      rw [heq, hnone] at ht
      cases ht
    rw [Finmap.lookup_insert_of_ne _ hj, ht]
  refine ⟨?_, ?_, h.allocated, h.nodup, ?_, ?_⟩
  · intro payer
    have hcarries : Task.carries payer
        (⟨call, call.firstStage⟩ : Task identityKey usageReceipt) = 0 := by
      apply carries_of_logged
      cases call <;> rfl
    rw [h.balance payer, sumBy_insert_of_none _ _ hnone, hcarries, add_zero]
  · rcases h.sequence with ⟨n, hnext, hcount⟩
    refine ⟨n, hnext, ?_⟩
    intro v
    have hholds : Task.holds v
        (⟨call, call.firstStage⟩ : Task identityKey usageReceipt) = 0 := by
      cases call <;> rfl
    rw [sumBy_insert_of_none _ _ hnone, hholds, add_zero]
    exact hcount v
  · intro r hr
    rcases h.covered r hr with hin | ⟨j, t, record, hj, ht, hrest⟩
    · exact Or.inl hin
    · exact Or.inr ⟨j, t, record, hj, hother ht, hrest⟩
  · intro j t payer amount fundingRef ht hcall
    rcases lookup_insert_eq_some.mp ht with ⟨_, heq⟩ | ⟨_, hold⟩
    · rw [heq] at hcall ⊢
      dsimp only at hcall ⊢
      rw [hcall]
      trivial
    · exact h.knows j t payer amount fundingRef hold hcall

theorem sequence_moves (h : Conserved s) (ht : s.tasks.lookup id = some ⟨c, stage⟩)
    (hmoves : Moves s.books id c stage b' stage') :
    exists n, b'.ledger.nextTxSeq = UInt64.ofNat n ∧
      forall v, (b'.ledger.txSeqs.count v : Int) +
          sumBy (fun _ t => t.holds v) (s.tasks.insert id ⟨c, stage'⟩) =
        ((List.range n).map UInt64.ofNat).count v := by
  rcases h.sequence with ⟨n, hnext, hcount⟩
  rcases holds_moves hmoves with ⟨hsame, hholds⟩ | ⟨hadvanced, hholds⟩
  · refine ⟨n, hsame.trans hnext, ?_⟩
    intro v
    rw [sumBy_insert _ _ ht]
    have hv := hholds v
    have hbefore := hcount v
    omega
  · refine ⟨n + 1, ?_, ?_⟩
    · rw [hadvanced, hnext, UInt64.ofNat_add]
      rfl
    · intro v
      rw [sumBy_insert _ _ ht, List.range_succ, List.map_append,
        List.count_append, List.map_cons, List.map_nil, List.count_singleton, <- hnext]
      have hv := hholds v
      have hbefore := hcount v
      simp only [beq_iff_eq]
      split at hv
      · rename_i heq
        rw [if_pos heq]
        omega
      · rename_i hne
        rw [if_neg hne]
        omega

theorem conserved_resume (h : Conserved s) (ht : s.tasks.lookup id = some ⟨c, stage⟩)
    (hfits : s.CreditFits (Event.resume id)) (hmoves : Moves s.books id c stage b' stage') :
    Conserved ⟨b', s.tasks.insert id ⟨c, stage'⟩⟩ := by
  have hown : forall payer amount fundingRef,
      c = Call.topUp payer amount fundingRef ->
        TopUpKnows s.books id fundingRef stage := by
    intro payer amount fundingRef hc
    exact h.knows id ⟨c, stage⟩ payer amount fundingRef ht hc
  refine ⟨?_, sequence_moves h ht hmoves, allocated_moves hmoves h.allocated,
    nodup_moves hmoves h.nodup hown, covered_moves hmoves h.covered ht hown, ?_⟩
  · intro payer
    have hcredit : forall who amount fundingRef,
        c = Call.topUp who amount fundingRef -> stage = Stage.balance ->
          (s.books.ledger.balance who).toNat + amount.toNat < 2 ^ 64 := by
      intro who amount fundingRef hc hstage
      apply hfits (who, amount)
      rw [creditOf, ht, hc, hstage]
      rfl
    have haccounted := accounted_moves hmoves hcredit payer
    rw [h.balance payer] at haccounted
    rw [sumBy_insert _ _ ht]
    dsimp only at haccounted ⊢
    omega
  · intro j t payer amount fundingRef htj hcall
    rcases lookup_insert_eq_some.mp htj with ⟨heq, hnew⟩ | ⟨hne, hold⟩
    · rw [hnew] at hcall ⊢
      dsimp only at hcall ⊢
      rw [hcall] at hmoves
      rw [heq]
      exact topUpKnows_moves hmoves (covered_of_free h.covered)
        (hown payer amount fundingRef hcall)
    · exact topUpKnows_other hmoves hne hown
        (h.knows j t payer amount fundingRef hold hcall)

theorem conserved_step (s : System identityKey usageReceipt) (e : Event identityKey)
    (h : Conserved s) (hfits : s.CreditFits e) : Conserved (s.step sign e) := by
  cases e with
  | spawn id call =>
      rw [step]
      split
      · rename_i hnone
        exact conserved_spawn h call hnone
      · exact h
  | resume id =>
      rw [step]
      split
      · exact h
      · rename_i t ht
        exact conserved_resume h ht hfits (moves_advance s.books id t.stage t.call)

/-!
# Calls that fail
-/

/-- Past the balance section no error is left to return. -/
def Stage.committed : Stage usageReceipt -> Bool
  | Stage.nextSeq => true
  | Stage.push _ => true
  | Stage.insertRef _ => true
  | Stage.issue _ => true
  | Stage.returned (Except.ok _) => true
  | _ => false

theorem committed_of_changed (h : Moves b id c stage b' stage') :
    (b'.ledger = b.ledger ∧ b'.receiptLogs = b.receiptLogs) ∨ stage'.committed = true := by
  cases h with
  | credited | spent | sequenced | pushedTopUp | pushedRefund | inserted | issued =>
      exact Or.inr rfl
  | pushedDebit txSeq _ _ _ hnext =>
      rcases hnext with hnext | hnext
      · exact Or.inr (hnext ▸ rfl)
      · exact Or.inr (hnext ▸ rfl)
  | _ => exact Or.inl ⟨rfl, rfl⟩

theorem committed_moves (h : Moves b id c stage b' stage') (hcommitted : stage.committed = true) :
    stage'.committed = true := by
  cases h with
  | stays => exact hcommitted
  | refused e _ hstage =>
      rcases hstage with hstage | hstage
      · rw [hstage] at hcommitted
        cases hcommitted
      · rw [hstage] at hcommitted
        cases hcommitted
  | checked | replayed | locked => cases hcommitted
  | pushedDebit txSeq _ _ _ hnext =>
      rcases hnext with hnext | hnext
      · rw [hnext]
        rfl
      · rw [hnext]
        rfl
  | _ => rfl

/-- The call `id` has passed its balance section. -/
def System.Committed (s : System identityKey usageReceipt) (id : Nat) : Prop :=
  exists t, s.tasks.lookup id = some t ∧ t.stage.committed = true

theorem committed_step (h : s.Committed id) (e : Event identityKey) :
    (s.step sign e).Committed id := by
  rcases h with ⟨t, ht, hcommitted⟩
  cases e with
  | spawn j call =>
      rw [step]
      split
      · rename_i hnone
        refine ⟨t, ?_, hcommitted⟩
        have hne : id ≠ j := by
          intro heq
          rw [heq, hnone] at ht
          cases ht
        rw [Finmap.lookup_insert_of_ne _ hne, ht]
      · exact ⟨t, ht, hcommitted⟩
  | resume j =>
      rw [step]
      split
      · exact ⟨t, ht, hcommitted⟩
      · rename_i u hu
        by_cases hj : id = j
        · rw [<- hj] at hu ⊢
          rw [ht] at hu
          cases hu
          exact ⟨_, Finmap.lookup_insert _,
            committed_moves (moves_advance s.books id t.stage t.call) hcommitted⟩
        · refine ⟨t, ?_, hcommitted⟩
          rw [Finmap.lookup_insert_of_ne _ hj, ht]

theorem committed_after (h : s.Committed id) (events : List (Event identityKey)) :
    (after (step sign) s events).Committed id := by
  induction events generalizing s with
  | nil => exact h
  | cons e rest ih => exact ih (committed_step h e)

theorem unchanged_of_error {later : List (Event identityKey)}
    {t : Task identityKey usageReceipt} {error : PrepaidError}
    (ht : (after (step sign) s (Event.resume id :: later)).tasks.lookup id = some t)
    (herror : t.stage = Stage.returned (Except.error error)) :
    (s.step sign (Event.resume id)).books.ledger = s.books.ledger ∧
      (s.step sign (Event.resume id)).books.receiptLogs = s.books.receiptLogs := by
  change (after (step sign) (s.step sign (Event.resume id))
    later).tasks.lookup id = some t at ht
  cases hnow : s.tasks.lookup id with
  | none =>
      have hsame : s.step sign (Event.resume id) = s := by
        rw [step, hnow]
      rw [hsame]
      exact ⟨rfl, rfl⟩
  | some u =>
      have hstep : s.step sign (Event.resume id) =
          ⟨(advance sign s.books id u.stage u.call).1,
            s.tasks.insert id ⟨u.call, (advance sign s.books id u.stage u.call).2⟩⟩ := by
        rw [step, hnow]
      have hmoves : Moves s.books id u.call u.stage
          (advance sign s.books id u.stage u.call).1
          (advance sign s.books id u.stage u.call).2 :=
        moves_advance s.books id u.stage u.call
      rcases committed_of_changed hmoves with hsame | hcommitted
      · rw [hstep]
        exact hsame
      · have hnext : (s.step sign (Event.resume id)).Committed id := by
          rw [hstep]
          exact ⟨_, Finmap.lookup_insert _, hcommitted⟩
        rcases committed_after hnext later with ⟨v, hv, hend⟩
        rw [ht] at hv
        injection hv with hv
        rw [<- hv, herror] at hend
        cases hend

/-!
# When no call is in progress
-/

def Stage.done : Stage usageReceipt -> Bool
  | Stage.returned _ => true
  | _ => false

def System.Quiescent (s : System identityKey usageReceipt) : Prop :=
  any (fun _ t => !t.stage.done) s.tasks = false

instance (s : System identityKey usageReceipt) : Decidable s.Quiescent :=
  inferInstanceAs (Decidable (_ = _))

theorem done_of_quiescent (h : s.Quiescent) {t : Task identityKey usageReceipt}
    (ht : s.tasks.lookup id = some t) : exists result, t.stage = Stage.returned result := by
  cases hstage : t.stage with
  | returned result => exact ⟨result, rfl⟩
  | _ =>
      have hany : any (fun _ u => !u.stage.done) s.tasks = true := by
        apply any_eq_true.mpr
        refine ⟨id, t, ht, ?_⟩
        rw [hstage]
        rfl
      rw [System.Quiescent, hany] at h
      cases h

/-- Balances, funding references and sequence numbers agree with the logs. -/
structure Reconciled (s : System identityKey usageReceipt) : Prop where
  balance : forall payer,
    ((s.books.ledger.balance payer).toNat : Int) =
      s.books.ledger.topUpTotal payer - s.books.ledger.debitTotal payer -
        s.books.ledger.refundTotal payer
  loggedOnce : forall fundingRef, fundingRef ∈ s.books.ledger.fundingRefs ->
    s.books.ledger.fundingRefs.count fundingRef = 1
  toppedUpOnce : forall id t payer amount fundingRef, s.tasks.lookup id = some t ->
    t.call = Call.topUp payer amount fundingRef ->
      s.books.ledger.fundingRefs.count fundingRef = 1
  txSeqs : s.books.ledger.txSeqs.Nodup

theorem nodup_sequence {n : Nat} (h : n <= 2 ^ 64) : ((List.range n).map UInt64.ofNat).Nodup := by
  apply List.Nodup.map_on _ List.nodup_range
  intro i hi j hj heq
  have hi : i < 2 ^ 64 := Nat.lt_of_lt_of_le (List.mem_range.mp hi) h
  have hj : j < 2 ^ 64 := Nat.lt_of_lt_of_le (List.mem_range.mp hj) h
  rw [<- UInt64.toNat_inj, UInt64.toNat_ofNat_of_lt' hi, UInt64.toNat_ofNat_of_lt' hj] at heq
  exact heq

theorem length_txSeqs {l : PrepaidLedger} (h : Allocated l) : l.txSeqs.length <= 2 ^ 64 := by
  have htop : maxTopUps + maxDebits + maxRefunds <= 2 ^ 64 := by decide
  rw [PrepaidLedger.txSeqs, List.length_append, List.length_append, List.length_map,
    List.length_map, List.length_map]
  calc l.topUps.length + l.debits.length + l.refunds.length
      <= maxTopUps + maxDebits + maxRefunds :=
        Nat.add_le_add (Nat.add_le_add h.topUps h.debits) h.refunds
    _ <= 2 ^ 64 := htop

theorem reconciled_of_conserved (h : Conserved s) (hquiet : s.Quiescent) : Reconciled s := by
  refine ⟨?_, ?_, ?_, ?_⟩
  · intro payer
    have hcarries : sumBy (fun _ t => Task.carries payer t) s.tasks = 0 := by
      apply sumBy_eq_zero
      intro id t ht
      rcases done_of_quiescent hquiet ht with ⟨result, hresult⟩
      simp [Task.carries, hresult, Stage.unlogged]
    have hbalance := h.balance payer
    rw [hcarries, sub_eq_zero] at hbalance
    exact hbalance
  · intro fundingRef hmem
    exact List.count_eq_one_of_mem h.nodup hmem
  · intro id t payer amount fundingRef ht hcall
    rcases done_of_quiescent hquiet ht with ⟨result, hresult⟩
    have hknows := h.knows id t payer amount fundingRef ht hcall
    rw [hresult] at hknows
    rcases hknows with ⟨record, hmem, href, _⟩
    apply List.count_eq_one_of_mem h.nodup
    rw [<- href]
    exact List.mem_map_of_mem hmem
  · rcases h.sequence with ⟨n, _, hcount⟩
    have hperm : s.books.ledger.txSeqs.Perm ((List.range n).map UInt64.ofNat) := by
      apply List.perm_iff_count.mpr
      intro v
      have hholds : sumBy (fun _ t => Task.holds v t) s.tasks = 0 := by
        apply sumBy_eq_zero
        intro id t ht
        rcases done_of_quiescent hquiet ht with ⟨result, hresult⟩
        rw [Task.holds, hresult]
      have hv := hcount v
      rw [hholds, add_zero] at hv
      exact Int.ofNat.inj hv
    have hlength : n <= 2 ^ 64 := by
      have hlen := hperm.length_eq
      rw [List.length_map, List.length_range] at hlen
      rw [<- hlen]
      exact length_txSeqs h.allocated
    exact hperm.nodup_iff.mpr (nodup_sequence hlength)

/--
Any interleaving of any calls, as long as no credit carries a balance past the
largest `u64`: when no call is in progress the books are reconciled, and the calls
that returned an error changed nothing.
-/
theorem prepaid_reconciled (currency : String) (events : List (Event identityKey))
    (hfits : Transition.StepsMeet (step sign) System.CreditFits
      (start currency) events) :
    ((after (step sign) (start currency) events).Quiescent ->
      Reconciled (after (step sign) (start currency) events)) ∧
    forall before id later t error, events = before ++ Event.resume id :: later ->
      (after (step sign) (start currency)
        events).tasks.lookup id = some t ->
      t.stage = Stage.returned (Except.error error) ->
      (after (step sign) (start currency)
          (before ++ [Event.resume id])).books.ledger =
        (after (step sign) (start currency)
          before).books.ledger ∧
      (after (step sign) (start currency)
          (before ++ [Event.resume id])).books.receiptLogs =
        (after (step sign) (start currency)
          before).books.receiptLogs := by
  constructor
  · exact reconciled_of_conserved
      (invariant_after conserved_step (conserved_start currency) hfits)
  · intro before id later t error hevents ht herror
    rw [hevents, after_append] at ht
    rw [after_append]
    exact unchanged_of_error ht herror

end Conservation

/-!
# A replayed top-up beside a refused debit
-/

def plainReceipt (op : BilledOperation) (_ : Unit) : BilledOperation :=
  op

def tenUnits : Bill where
  currency := "USD"
  amount := 10
  lineItems := [⟨ResourceKind.messages, 10, 0, 10, 1, 10⟩]

def replayRun : List (Event Unit) :=
  [Event.spawn 1 (Call.topUp [1] 15 "funding-1"),
    Event.spawn 2 (Call.topUp [2] 99 "funding-1"),
    Event.resume 1, Event.resume 2, Event.resume 1, Event.resume 1, Event.resume 1,
    Event.resume 1, Event.resume 2, Event.resume 2,
    Event.spawn 3 (Call.debitAndReceipt [1] tenUnits 0 ()),
    Event.spawn 4 (Call.debit [1] tenUnits),
    Event.resume 3, Event.resume 4, Event.resume 3, Event.resume 4, Event.resume 3,
    Event.resume 3, Event.resume 3]

theorem replayRun_reconciled :
    (after (step plainReceipt) (start "USD")
        replayRun).books.ledger.balance [1] = 5 ∧
      Reconciled (after (step plainReceipt) (start "USD")
        replayRun) := by
  constructor
  · decide +kernel
  · exact (prepaid_reconciled "USD" replayRun (by decide +kernel)).1 (by decide +kernel)

end Prepaid
end Billing
end Ephor
