import Ephor.Billing.PrepaidConservation
import Ephor.Billing.Tariff

/-!
# The money of a bill

The amount of a bill is taken from a prepaid balance by `debit`, and its lines are handed
to the payer as receipts by `issue_for_bill`.  Where no sum was cut off, the receipts add
up to what was taken, whatever the other calls on the ledger do meanwhile.
-/

namespace Ephor
namespace Billing

open Foundation

variable {bill : Bill} {id : Nat} {payer : Bytes}

section Receipts

variable {identityKey usageReceipt : Type}
  (sign : BilledOperation -> identityKey -> usageReceipt)

/-- The receipts are the signatures of operations whose amounts add up to the total. -/
def ReceiptsTotal (ik : identityKey) (receipts : List usageReceipt) (total : Int) : Prop :=
  exists ops : List BilledOperation, receipts = ops.map (fun op => sign op ik) ∧
    (ops.map fun op => (op.amount.toNat : Int)).sum = total

theorem ReceiptLog.issueItems_total (payer : Bytes) (bill : Bill) (ik : identityKey)
    (items : List LineItem) (log : ReceiptLog usageReceipt) :
    ReceiptsTotal sign ik (issueItems sign payer bill ik items log).1
      (items.map fun item => (item.amount.toNat : Int)).sum := by
  induction items generalizing log with
  | nil => exact ⟨[], rfl, rfl⟩
  | cons item items ih =>
      rcases ih ⟨log.receipts ++ [sign (log.billedOperation payer bill item) ik],
        log.nextSequence + 1⟩ with ⟨ops, hreceipts, hsum⟩
      refine ⟨log.billedOperation payer bill item :: ops, ?_, ?_⟩
      · rw [List.map_cons, <- hreceipts]
        rfl
      · rw [List.map_cons, List.sum_cons, List.map_cons, List.sum_cons, hsum]
        rfl

def Bill.Exact (bill : Bill) : Prop :=
  (bill.lineItems.map fun item => (item.amount.toNat : Int)).sum = bill.amount.toNat

theorem ReceiptLog.issueForBill_total (h : bill.Exact) (payer : Bytes) (ik : identityKey)
    (log : ReceiptLog usageReceipt) :
    ReceiptsTotal sign ik (log.issueForBill sign payer bill ik).1 bill.amount.toNat := by
  have htotal := ReceiptLog.issueItems_total sign payer bill ik bill.lineItems log
  unfold Bill.Exact at h
  rw [h] at htotal
  exact htotal

end Receipts

namespace Prepaid

section Taken

variable {identityKey usageReceipt : Type}
  (sign : BilledOperation -> identityKey -> usageReceipt)

/-!
# What a call takes
-/

/-- What a section of the call `id` takes from the balance of the payer. -/
def System.takes (id : Nat) (payer : Bytes) (s : System identityKey usageReceipt) :
    Event identityKey -> List Int
  | Event.spawn _ _ => []
  | Event.resume j =>
      if j = id then
        [((s.books.ledger.balance payer).toNat : Int) -
          ((s.step sign (Event.resume j)).books.ledger.balance payer).toNat]
      else
        []

/-- What the call `id` takes from the balance of the payer in the run. -/
def taken (id : Nat) (payer : Bytes) (currency : String)
    (events : List (Event identityKey)) : Int :=
  (Transition.emitted (System.step sign) (System.takes sign id payer)
    (System.start currency) events).sum

def Task.paid (t : Task identityKey usageReceipt) : Int :=
  if t.stage.committed then t.call.amount.toNat else 0

variable {sign}

variable {stage : Stage usageReceipt} {t : Task identityKey usageReceipt}

theorem paid_of_committed (h : stage.committed = true) (c : Call identityKey) :
    Task.paid ⟨c, stage⟩ = c.amount.toNat :=
  if_pos h

theorem paid_moves {b b' : Books usageReceipt} {c : Call identityKey}
    {stage' : Stage usageReceipt} (h : Moves b id c stage b' stage') (hc : c.isTopUp = false) :
    ((b.ledger.balance c.payer).toNat : Int) - (b'.ledger.balance c.payer).toNat =
      Task.paid ⟨c, stage'⟩ - Task.paid ⟨c, stage⟩ := by
  cases h with
  | stays => rw [sub_self, sub_self]
  | refused e _ hstage =>
      have hpaid : Task.paid ⟨c, stage⟩ = 0 := by
        rcases hstage with hstage | hstage
        · rw [hstage]
          rfl
        · rw [hstage]
          rfl
      rw [hpaid, sub_self]
      rfl
  | spent _ henough =>
      rw [PrepaidLedger.balance_spent _ _ _ henough, if_pos rfl, paid_of_committed rfl]
      rw [sub_sub_cancel]
      exact (sub_zero _).symm
  | checked | sequenced | pushedRefund | issued => exact (sub_self _).trans (sub_self _).symm
  | pushedDebit txSeq next _ _ hnext =>
      have hpaid : Task.paid ⟨c, stage'⟩ = c.amount.toNat := by
        rcases hnext with hnext | hnext
        · rw [hnext]
          exact paid_of_committed rfl c
        · rw [hnext]
          exact paid_of_committed rfl c
      rw [hpaid]
      exact (sub_self _).trans (sub_self _).symm
  | replayed payer amount fundingRef heq | locked payer amount fundingRef heq
  | found payer amount fundingRef record heq | credited payer amount fundingRef heq
  | pushedTopUp payer amount fundingRef txSeq heq | inserted payer amount fundingRef record heq =>
      rw [heq] at hc
      cases hc

/-- The outputs so far are what the call `id` has taken from its payer. -/
structure Settled (id : Nat) (payer : Bytes) (s : System identityKey usageReceipt)
    (outs : List Int) : Prop where
  absent : s.tasks.lookup id = none -> outs.sum = 0
  present : forall t, s.tasks.lookup id = some t -> t.call.isTopUp = false ->
    t.call.payer = payer -> outs.sum = t.paid

theorem settled_start (id : Nat) (payer : Bytes) (currency : String) :
    Settled id payer (System.start currency : System identityKey usageReceipt) [] := by
  constructor
  · intro _
    rfl
  · intro t ht
    cases ht

theorem settled_insert_of_ne {j : Nat} {s : System identityKey usageReceipt} {outs : List Int}
    (h : Settled id payer s outs) (hne : id ≠ j) (b : Books usageReceipt)
    (t : Task identityKey usageReceipt) : Settled id payer ⟨b, s.tasks.insert j t⟩ outs := by
  constructor
  · intro hlookup
    rw [Finmap.lookup_insert_of_ne _ hne] at hlookup
    exact h.absent hlookup
  · intro u hu
    rw [Finmap.lookup_insert_of_ne _ hne] at hu
    exact h.present u hu

theorem settled_spawn {j : Nat} {s : System identityKey usageReceipt} {outs : List Int}
    (h : Settled id payer s outs) (call : Call identityKey) (hnone : s.tasks.lookup j = none) :
    Settled id payer { s with tasks := s.tasks.insert j ⟨call, call.firstStage⟩ } outs := by
  by_cases hj : id = j
  · rw [<- hj] at hnone ⊢
    constructor
    · intro hlookup
      rw [Finmap.lookup_insert] at hlookup
      cases hlookup
    · intro t ht _ _
      rw [Finmap.lookup_insert] at ht
      injection ht with ht
      rw [<- ht, h.absent hnone]
      cases call with
      | _ => rfl
  · exact settled_insert_of_ne h hj s.books ⟨call, call.firstStage⟩

theorem settled_resume {s : System identityKey usageReceipt} {outs : List Int}
    {b : Books usageReceipt} (h : Settled id payer s outs) (ht : s.tasks.lookup id = some t)
    (hmoves : Moves s.books id t.call t.stage b stage) :
    Settled id payer ⟨b, s.tasks.insert id ⟨t.call, stage⟩⟩
      (outs ++ [((s.books.ledger.balance payer).toNat : Int) -
        (b.ledger.balance payer).toNat]) := by
  constructor
  · intro hlookup
    rw [Finmap.lookup_insert] at hlookup
    cases hlookup
  · intro u hu hcall hpayer
    rw [Finmap.lookup_insert] at hu
    injection hu with hu
    rw [<- hu] at hcall hpayer ⊢
    have hsofar := h.present t ht hcall hpayer
    have hmoved := paid_moves hmoves hcall
    rw [hpayer] at hmoved
    rw [List.sum_append, List.sum_singleton, hmoved, hsofar, add_sub_cancel]

theorem settled_step (s : System identityKey usageReceipt) (outs : List Int)
    (e : Event identityKey) (h : Settled id payer s outs) :
    Settled id payer (s.step sign e) (outs ++ s.takes sign id payer e) := by
  cases e with
  | spawn j call =>
      rw [System.takes, List.append_nil, System.step]
      split
      · rename_i hnone
        exact settled_spawn h call hnone
      · exact h
  | resume j =>
      by_cases hj : j = id
      · rw [System.takes, if_pos hj, hj]
        cases ht : s.tasks.lookup id with
        | none =>
            have hsame : s.step sign (Event.resume id) = s := by
              rw [System.step, ht]
            rw [hsame, sub_self]
            constructor
            · intro hnone
              rw [List.sum_append, h.absent hnone]
              rfl
            · intro t hsome
              rw [ht] at hsome
              cases hsome
        | some t =>
            have hstep : s.step sign (Event.resume id) =
                ⟨(advance sign s.books id t.stage t.call).1,
                  s.tasks.insert id ⟨t.call, (advance sign s.books id t.stage t.call).2⟩⟩ := by
              rw [System.step, ht]
            rw [hstep]
            exact settled_resume h ht (moves_advance s.books id t.stage t.call)
      · rw [System.takes, if_neg hj, List.append_nil, System.step]
        split
        · exact h
        · exact settled_insert_of_ne h (Ne.symm hj) _ _

theorem taken_eq_paid {currency : String} {events : List (Event identityKey)}
    (ht : (Transition.after (System.step sign) (System.start currency)
      events).tasks.lookup id = some t) (hcall : t.call.isTopUp = false) :
    taken sign id t.call.payer currency events = t.paid := by
  have hstep : forall (s : System identityKey usageReceipt) outs e,
      Settled id t.call.payer s outs -> True ->
        Settled id t.call.payer (s.step sign e) (outs ++ s.takes sign id t.call.payer e) := by
    intro s outs e h _
    exact settled_step s outs e h
  have hsettled := Transition.invariant_emitted hstep
    (settled_start id t.call.payer currency)
    (Transition.stepsMeet_true (System.step sign) (System.start currency) events)
  rw [List.nil_append] at hsettled
  exact hsettled.present t ht hcall rfl

/-!
# What a call hands out
-/

/-- The stages of `debit_and_receipt` carry the money of the bill. -/
def Stage.Carries (sign : BilledOperation -> identityKey -> usageReceipt) (bill : Bill)
    (ik : identityKey) : Stage usageReceipt -> Prop
  | Stage.issue record => record.amount = bill.amount
  | Stage.returned (Except.ok outcome) =>
      exists record receipts, outcome = Outcome.debitAndReceipt record receipts ∧
        record.amount = bill.amount ∧ ReceiptsTotal sign ik receipts bill.amount.toNat
  | _ => True

def Task.Carries (sign : BilledOperation -> identityKey -> usageReceipt) (bill : Bill)
    (t : Task identityKey usageReceipt) : Prop :=
  forall payer log ik, t.call = Call.debitAndReceipt payer bill log ik ->
    t.stage.Carries sign bill ik

theorem carries_advance (hexact : bill.Exact) (b : Books usageReceipt) (id : Nat)
    (payer : Bytes) (log : Nat) (ik : identityKey) (h : stage.Carries sign bill ik) :
    (advance sign b id stage (Call.debitAndReceipt payer bill log ik)).2.Carries sign bill ik := by
  cases stage with
  | issue record =>
      exact ⟨record, _, rfl, h, ReceiptLog.issueForBill_total sign hexact payer ik _⟩
  | checkCurrency =>
      change (advanceDebit b payer bill Stage.issue Stage.checkCurrency).2.Carries sign bill ik
      rw [advanceDebit]
      split
      · trivial
      · trivial
  | balance =>
      change (advanceDebit b payer bill Stage.issue Stage.balance).2.Carries sign bill ik
      rw [advanceDebit, Books.spend]
      split
      · trivial
      · trivial
  | push txSeq =>
      change (advanceDebit b payer bill Stage.issue (Stage.push txSeq)).2.Carries sign bill ik
      rw [advanceDebit]
      dsimp only
      split
      · rfl
      · trivial
  | nextSeq | lockRefs | findRecord | insertRef record => trivial
  | returned result => exact h

theorem tasks_after (property : Task identityKey usageReceipt -> Prop)
    (hfirst : forall call, property ⟨call, call.firstStage⟩)
    (hadvance : forall b id t, property t ->
      property ⟨t.call, (advance sign b id t.stage t.call).2⟩) {currency : String}
    {events : List (Event identityKey)}
    (ht : (Transition.after (System.step sign) (System.start currency)
      events).tasks.lookup id = some t) : property t := by
  have hstep : forall (s : System identityKey usageReceipt) (e : Event identityKey),
      (forall id t, s.tasks.lookup id = some t -> property t) -> True ->
        forall id t, (s.step sign e).tasks.lookup id = some t -> property t := by
    intro s e h _ id t ht
    cases e with
    | spawn j call =>
        rw [System.step] at ht
        split at ht
        · rcases FiniteMap.lookup_insert_eq_some.mp ht with hnew | hold
          · rw [hnew.2]
            exact hfirst call
          · exact h id t hold.2
        · exact h id t ht
    | resume j =>
        rw [System.step] at ht
        split at ht
        · exact h id t ht
        · rename_i u hu
          rcases FiniteMap.lookup_insert_eq_some.mp ht with hnew | hold
          · rw [hnew.2]
            exact hadvance s.books j u (h j u hu)
          · exact h id t hold.2
  have hstart : forall id t,
      (System.start currency : System identityKey usageReceipt).tasks.lookup id = some t ->
        property t := by
    intro id t ht
    cases ht
  exact Transition.invariant_after hstep hstart
    (Transition.stepsMeet_true (System.step sign) (System.start currency) events) id t ht

theorem carries_after (hexact : bill.Exact) {currency : String} {events : List (Event identityKey)}
    (ht : (Transition.after (System.step sign) (System.start currency)
      events).tasks.lookup id = some t) {log : Nat} {ik : identityKey}
    (hcall : t.call = Call.debitAndReceipt payer bill log ik) : t.stage.Carries sign bill ik := by
  have hfirst : forall call : Call identityKey,
      Task.Carries sign bill ⟨call, call.firstStage⟩ := by
    intro call payer log ik hcall
    change call = _ at hcall
    rw [hcall]
    trivial
  have hadvance : forall (b : Books usageReceipt) id (t : Task identityKey usageReceipt),
      t.Carries sign bill ->
        Task.Carries sign bill ⟨t.call, (advance sign b id t.stage t.call).2⟩ := by
    intro b id t h payer log ik hcall
    change t.call = _ at hcall
    have hstage := h payer log ik hcall
    rw [hcall]
    exact carries_advance hexact b id payer log ik hstage
  exact tasks_after (Task.Carries sign bill) hfirst hadvance ht payer log ik hcall

/-!
# The three together
-/

structure SameMoney (sign : BilledOperation -> identityKey -> usageReceipt) (bill : Bill) :
    Prop where
  issued : forall (log : ReceiptLog usageReceipt) payer ik,
    ReceiptsTotal sign ik (log.issueForBill sign payer bill ik).1 bill.amount.toNat
  debited : forall currency events id t outcome payer,
    (Transition.after (System.step sign) (System.start currency)
      events).tasks.lookup id = some t -> t.stage = Stage.returned (Except.ok outcome) ->
    t.call = Call.debit payer bill ->
      taken sign id payer currency events = bill.amount.toNat
  receipted : forall currency events id t outcome payer log ik,
    (Transition.after (System.step sign) (System.start currency)
      events).tasks.lookup id = some t -> t.stage = Stage.returned (Except.ok outcome) ->
    t.call = Call.debitAndReceipt payer bill log ik ->
      exists record receipts, outcome = Outcome.debitAndReceipt record receipts ∧
        (record.amount.toNat : Int) = taken sign id payer currency events ∧
        ReceiptsTotal sign ik receipts (taken sign id payer currency events)

theorem sameMoney_of_exact (hexact : bill.Exact) : SameMoney sign bill where
  issued := by
    intro log payer ik
    exact ReceiptLog.issueForBill_total sign hexact payer ik log
  debited := by
    intro currency events id t outcome payer ht hstage hcall
    have htaken := taken_eq_paid ht (by rw [hcall]; rfl)
    rw [Task.paid, hstage, hcall] at htaken
    exact htaken
  receipted := by
    intro currency events id t outcome payer log ik ht hstage hcall
    have htaken := taken_eq_paid ht (by rw [hcall]; rfl)
    rw [Task.paid, hstage, hcall] at htaken
    change taken sign id payer currency events = bill.amount.toNat at htaken
    have hcarries := carries_after hexact ht hcall
    rw [hstage] at hcarries
    rcases hcarries with ⟨record, receipts, houtcome, hrecord, htotal⟩
    rw [htaken]
    exact ⟨record, receipts, houtcome, by rw [hrecord], htotal⟩

end Taken

end Prepaid

/-!
# Bills
-/

/--
An evaluation fails for a metered kind without a price only.  A bill has one line for each
metered kind, its amount is the exact one cut off at the largest `u64` and grows with the
usage, and where the exact amount fits, debit and receipts are over the same money.
-/
theorem bill_evaluation {cborError : Type} (schedule : TariffSchedule) (usage : Usage) :
    ((exists e, (schedule.evaluate usage : Except (BillingError cborError) Bill) =
        Except.error e) <->
      exists kind units, usage.lookup kind = some units ∧
        schedule.prices.lookup kind = none) ∧
    forall bill,
      (schedule.evaluate usage : Except (BillingError cborError) Bill) = Except.ok bill ->
        (bill.amount.toNat : Int) = min (2 ^ 64 - 1) (schedule.exactAmount usage) ∧
        FiniteMap.Visits (bill.lineItems.map LineItem.kind) usage ∧
        (forall item, item ∈ bill.lineItems ->
          usage.lookup item.kind = some item.meteredUnits ∧
            item.meteredUnits.toNat =
              item.freeUnitsApplied.toNat + item.billedUnits.toNat) ∧
        (forall usage' bill',
          (forall kind, (usage.lookup kind).getD 0 <= (usage'.lookup kind).getD 0) ->
          (schedule.evaluate usage' : Except (BillingError cborError) Bill) =
            Except.ok bill' -> bill.amount <= bill'.amount) ∧
        (schedule.exactAmount usage < 2 ^ 64 ->
          forall (identityKey usageReceipt : Type)
            (sign : BilledOperation -> identityKey -> usageReceipt),
            Prepaid.SameMoney sign bill) := by
  constructor
  · exact TariffSchedule.evaluate_fails_iff
  · intro bill hbill
    rcases TariffSchedule.evaluate_eq_ok hbill with ⟨_, heq⟩
    rw [heq]
    refine ⟨TariffSchedule.toNat_amount_billOf usage, TariffSchedule.visits_billOf usage,
      ?_, ?_, ?_⟩
    · intro item hitem
      exact TariffSchedule.mem_billOf hitem
    · intro usage' bill' hle hbill'
      rw [(TariffSchedule.evaluate_eq_ok hbill').2]
      exact TariffSchedule.amount_billOf_mono hle
    · intro hfits identityKey usageReceipt sign
      apply Prepaid.sameMoney_of_exact
      exact TariffSchedule.sum_billOf (Int.le_sub_one_of_lt hfits)

def threeEach : TariffSchedule where
  currency := "USD"
  prices := (∅ : Usage).insert ResourceKind.messages 3
  freeAllowance := (∅ : Usage).insert ResourceKind.messages 2
  periodSeconds := none

def fiveMessages : Usage :=
  (∅ : Usage).insert ResourceKind.messages 5

def nineOwed : Bill where
  currency := "USD"
  amount := 9
  lineItems := [⟨ResourceKind.messages, 5, 2, 3, 3, 9⟩]

def billedRun : List (Prepaid.Event Unit) :=
  [Prepaid.Event.spawn 1 (Prepaid.Call.topUp [1] 15 "funding-1"),
    Prepaid.Event.resume 1, Prepaid.Event.resume 1, Prepaid.Event.resume 1,
    Prepaid.Event.resume 1, Prepaid.Event.resume 1,
    Prepaid.Event.spawn 2 (Prepaid.Call.topUp [2] 4 "funding-2"),
    Prepaid.Event.spawn 3 (Prepaid.Call.debitAndReceipt [1] nineOwed 0 ()),
    Prepaid.Event.resume 3, Prepaid.Event.resume 2, Prepaid.Event.resume 3,
    Prepaid.Event.resume 2, Prepaid.Event.resume 3, Prepaid.Event.resume 3,
    Prepaid.Event.resume 3]

theorem bill_evaluation_billedRun :
    (threeEach.evaluate fiveMessages : Except (BillingError Unit) Bill) = Except.ok nineOwed ∧
      Prepaid.SameMoney Prepaid.plainReceipt nineOwed ∧
      Prepaid.taken Prepaid.plainReceipt 3 [1] "USD" billedRun = 9 := by
  have hbill : (threeEach.evaluate fiveMessages : Except (BillingError Unit) Bill) =
      Except.ok nineOwed := rfl
  refine ⟨hbill, ?_, ?_⟩
  · exact ((bill_evaluation threeEach fiveMessages).2 nineOwed hbill).2.2.2.2
      (by decide +kernel) Unit BilledOperation Prepaid.plainReceipt
  · decide +kernel

end Billing
end Ephor
