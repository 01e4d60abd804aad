import Ephor.Foundation.Bytes
import Ephor.Foundation.FiniteMap
import Ephor.Foundation.Transition

/-!
# The prepaid settlement rail

`PatalaSettlement` of `pier-billing-patala`.  A verified receipt credits a local
prepaid balance; charges spend it.  The receipt references already credited are
kept in a set of their own, under a mutex of their own, and between the test of
that set and the insertion into it `credit_from_receipt` awaits the payment rail.
The model therefore runs each call as a task that performs one lock section at a
time, with every other task free to run in between.
-/

namespace Ephor
namespace Billing

open Foundation
open Transition

structure Receipt where
  railId : String
  amountMinor : UInt64
  currency : String
  reference : String
  proof : Bytes
  settledAtUnix : UInt64
deriving DecidableEq

inductive PatalaSettlementError where
  | currencyMismatch (requested configured : String)
  | insufficientCredit (balance amount : UInt64) (currency : String)
  | rail (message : String)
  | notVerified
  | receiptCurrencyMismatch (receipt expected : String)
deriving DecidableEq

structure SettlementReceipt where
  payer : Bytes
  amount : UInt64
  currency : String
  txSeq : UInt64
deriving DecidableEq

/-- The mutable part of `PatalaSettlement`, with its currency. -/
structure PatalaSettlement where
  currency : String
  ledger : FiniteMap Bytes UInt64
  creditedReferences : Finset String
  nextTxSeq : UInt64

namespace PatalaSettlement

def new (currency : String) : PatalaSettlement where
  currency := currency
  ledger := ∅
  creditedReferences := ∅
  nextTxSeq := 0

def localBalance (p : PatalaSettlement) (payer : Bytes) : UInt64 :=
  (p.ledger.lookup payer).getD 0

/-- `charge`: spend the local balance, never a call to the rail. -/
def charge (p : PatalaSettlement) (payer : Bytes) (amount : UInt64)
    (currency : String) :
    Except PatalaSettlementError SettlementReceipt × PatalaSettlement :=
  if currency ≠ p.currency then
    (Except.error
      (PatalaSettlementError.currencyMismatch currency p.currency), p)
  else if p.localBalance payer < amount then
    (Except.error
      (PatalaSettlementError.insufficientCredit (p.localBalance payer) amount
        currency), p)
  else
    (Except.ok ⟨payer, amount, currency, p.nextTxSeq⟩,
      { p with
        ledger := p.ledger.insert payer (p.localBalance payer - amount)
        nextTxSeq := p.nextTxSeq + 1 })

end PatalaSettlement

def saturatingAdd (a b : UInt64) : UInt64 :=
  if a.toNat + b.toNat < 2 ^ 64 then a + b else UInt64.ofNat (2 ^ 64 - 1)

/-!
# One call of `credit_from_receipt`
-/

structure CreditCall where
  payer : Bytes
  receipt : Receipt
deriving DecidableEq

def CreditCall.reference (c : CreditCall) : String :=
  c.receipt.reference

/-- Where a call stands; each stage but the last names what it does next. -/
inductive Stage where
  | checkCurrency
  | lookup
  | reportBalance
  | awaitVerify
  | credit
  | insertReference (newBalance : UInt64)
  | returned (result : Except PatalaSettlementError UInt64)
deriving DecidableEq

/-- One lock section of a call; a call that awaits the rail does not move. -/
def advance (p : PatalaSettlement) (c : CreditCall) :
    Stage -> PatalaSettlement × Stage
  | Stage.checkCurrency =>
      if c.receipt.currency ≠ p.currency then
        (p, Stage.returned
          (Except.error
            (PatalaSettlementError.receiptCurrencyMismatch c.receipt.currency
              p.currency)))
      else
        (p, Stage.lookup)
  | Stage.lookup =>
      if c.reference ∈ p.creditedReferences then
        (p, Stage.reportBalance)
      else
        (p, Stage.awaitVerify)
  | Stage.reportBalance =>
      (p, Stage.returned (Except.ok (p.localBalance c.payer)))
  | Stage.awaitVerify => (p, Stage.awaitVerify)
  | Stage.credit =>
      let entry := saturatingAdd (p.localBalance c.payer) c.receipt.amountMinor
      ({ p with ledger := p.ledger.insert c.payer entry },
        Stage.insertReference entry)
  | Stage.insertReference newBalance =>
      ({ p with
          creditedReferences := insert c.reference p.creditedReferences },
        Stage.returned (Except.ok newBalance))
  | Stage.returned result => (p, Stage.returned result)

/-- The rail's answer reaches the call that awaits it. -/
def receive (verdict : Except String Bool) : Stage -> Stage
  | Stage.awaitVerify =>
      match verdict with
      | Except.error e =>
          Stage.returned (Except.error (PatalaSettlementError.rail e))
      | Except.ok true => Stage.credit
      | Except.ok false =>
          Stage.returned (Except.error PatalaSettlementError.notVerified)
  | stage => stage

/-!
# Tasks in any interleaving
-/

structure Task where
  call : CreditCall
  stage : Stage
deriving DecidableEq

structure System where
  settlement : PatalaSettlement
  tasks : FiniteMap Nat Task

def System.start (currency : String) : System where
  settlement := PatalaSettlement.new currency
  tasks := ∅

/-- A choice of the scheduler, of the rail, or of another caller. -/
inductive Event where
  | spawn (id : Nat) (call : CreditCall)
  | resume (id : Nat)
  | verified (id : Nat) (verdict : Except String Bool)
  | charge (payer : Bytes) (amount : UInt64) (currency : String)

def System.step (s : System) : Event -> System
  | Event.spawn id call =>
      match s.tasks.lookup id with
      | none =>
          { s with tasks := s.tasks.insert id ⟨call, Stage.checkCurrency⟩ }
      | some _ => s
  | Event.resume id =>
      match s.tasks.lookup id with
      | none => s
      | some t =>
          let (settlement, stage) := advance s.settlement t.call t.stage
          { settlement, tasks := s.tasks.insert id { t with stage } }
  | Event.verified id verdict =>
      match s.tasks.lookup id with
      | none => s
      | some t =>
          { s with
            tasks := s.tasks.insert id { t with stage := receive verdict t.stage } }
  | Event.charge payer amount currency =>
      { s with settlement := (s.settlement.charge payer amount currency).2 }

/-- The credit that a step applies to a payer's balance, if it applies one. -/
def System.credited (s : System) : Event -> List CreditCall
  | Event.resume id =>
      match s.tasks.lookup id with
      | some ⟨call, Stage.credit⟩ => [call]
      | _ => []
  | Event.spawn _ _ => []
  | Event.verified _ _ => []
  | Event.charge _ _ _ => []

def CreditsOnce (s : System) (events : List Event) : Prop :=
  ((emitted System.step System.credited s events).map
    CreditCall.reference).Nodup

/-!
# What a step does
-/

variable {verdict : Except String Bool} {settlement : PatalaSettlement}
    {credits : List CreditCall} {stage : Stage}

namespace System

variable {s : System} {id : Nat} {t : Task}

theorem step_spawn {call : CreditCall} (h : s.tasks.lookup id = none) :
    s.step (Event.spawn id call) =
      ⟨s.settlement, s.tasks.insert id ⟨call, Stage.checkCurrency⟩⟩ := by
  simp only [step, h]

theorem step_spawn_of_some {call : CreditCall} (h : s.tasks.lookup id = some t) :
    s.step (Event.spawn id call) = s := by
  simp only [step, h]

theorem step_resume (h : s.tasks.lookup id = some t) :
    s.step (Event.resume id) =
      ⟨(advance s.settlement t.call t.stage).1,
        s.tasks.insert id ⟨t.call, (advance s.settlement t.call t.stage).2⟩⟩ := by
  simp only [step, h]

theorem step_resume_of_none (h : s.tasks.lookup id = none) : s.step (Event.resume id) = s := by
  simp only [step, h]

theorem step_verified (h : s.tasks.lookup id = some t) :
    s.step (Event.verified id verdict) =
      ⟨s.settlement, s.tasks.insert id ⟨t.call, receive verdict t.stage⟩⟩ := by
  simp only [step, h]

theorem step_verified_of_none (h : s.tasks.lookup id = none) :
    s.step (Event.verified id verdict) = s := by
  simp only [step, h]

theorem credited_resume (h : s.tasks.lookup id = some t) :
    s.credited (Event.resume id) =
      if t.stage = Stage.credit then [t.call] else [] := by
  rcases t with ⟨call, stage⟩
  cases stage <;> simp [credited, h]

theorem credited_resume_of_none (h : s.tasks.lookup id = none) :
    s.credited (Event.resume id) = [] := by
  simp [credited, h]

end System

theorem charge_creditedReferences (p : PatalaSettlement) (payer : Bytes)
    (amount : UInt64) (currency : String) :
    (p.charge payer amount currency).2.creditedReferences = p.creditedReferences := by
  unfold PatalaSettlement.charge
  split
  · rfl
  · split <;> rfl

/-!
# Calls in flight

A call is in flight on its reference from the lookup that misses it to the
insertion.  The invariant is that at most one call is in flight on a reference,
and only while the reference is not in the set.
-/

def Stage.inFlight : Stage -> Bool
  | Stage.awaitVerify => true
  | Stage.credit => true
  | Stage.insertReference _ => true
  | _ => false

def Stage.inserting : Stage -> Bool
  | Stage.insertReference _ => true
  | _ => false

/-- No call but `id` is in flight on the reference, and it is not in the set. -/
structure Free (s : System) (id : Nat) (reference : String) : Prop where
  notCredited : reference ∉ s.settlement.creditedReferences
  alone : forall j u, j ≠ id -> s.tasks.lookup j = some u ->
    u.stage.inFlight = true -> u.call.reference ≠ reference

def Exclusive (s : System) : Prop :=
  forall id t, s.tasks.lookup id = some t -> t.stage.inFlight = true ->
    Free s id t.call.reference

/--
The condition on a step: a lookup that misses its reference is made while no
other call is in flight on that reference.
-/
def LookupExclusive (s : System) : Event -> Prop
  | Event.resume id =>
      forall t, s.tasks.lookup id = some t -> t.stage = Stage.lookup ->
        t.call.reference ∉ s.settlement.creditedReferences ->
        forall j u, s.tasks.lookup j = some u -> u.stage.inFlight = true ->
          u.call.reference ≠ t.call.reference
  | _ => True

instance decidableLookupExclusive (s : System) (e : Event) :
    Decidable (LookupExclusive s e) :=
  match e with
  | Event.resume id =>
      match h : s.tasks.lookup id with
      | none => isTrue fun t ht => by
          rw [h] at ht
          cases ht
      | some t =>
          decidable_of_iff
            (t.stage = Stage.lookup ->
              t.call.reference ∉ s.settlement.creditedReferences ->
              forall entry, entry ∈ s.tasks.entries ->
                entry.2.stage.inFlight = true ->
                entry.2.call.reference ≠ t.call.reference)
            (by
              constructor
              · intro hall t' ht' hstage hmiss j u hu
                rw [h] at ht'
                injection ht' with htt
                subst htt
                exact hall hstage hmiss ⟨j, u⟩ (Finmap.lookup_eq_some_iff.mp hu)
              · intro hall hstage hmiss entry hentry
                exact hall t h hstage hmiss entry.1 entry.2
                  (Finmap.lookup_eq_some_iff.mpr hentry))
  | Event.spawn _ _ => isTrue trivial
  | Event.verified _ _ => isTrue trivial
  | Event.charge _ _ _ => isTrue trivial

theorem exclusive_insert {s : System} {id : Nat} {task : Task} (h : Exclusive s)
    (hrefs : settlement.creditedReferences = s.settlement.creditedReferences)
    (hfree : task.stage.inFlight = true -> Free s id task.call.reference) :
    Exclusive ⟨settlement, s.tasks.insert id task⟩ := by
  intro j u hj hu
  rcases FiniteMap.lookup_insert_eq_some.mp hj with ⟨hid, htask⟩ | ⟨hid, hold⟩
  · subst hid
    subst htask
    have hbefore := hfree hu
    constructor
    · change _ ∉ settlement.creditedReferences
      rw [hrefs]
      exact hbefore.notCredited
    · intro k v hk hv
      rcases FiniteMap.lookup_insert_eq_some.mp hv with ⟨hkid, _⟩ | ⟨_, hvold⟩
      · exact absurd hkid hk
      · exact hbefore.alone k v hk hvold
  · have hbefore := h j u hold hu
    constructor
    · change _ ∉ settlement.creditedReferences
      rw [hrefs]
      exact hbefore.notCredited
    · intro k v hk hv
      rcases FiniteMap.lookup_insert_eq_some.mp hv with ⟨hkid, hvtask⟩ | ⟨_, hvold⟩
      · subst hvtask
        intro hflight heq
        exact (hfree hflight).alone j u hid hold hu heq.symm
      · exact hbefore.alone k v hk hvold

theorem exclusive_insertReference {s : System} {id : Nat} {t : Task}
    {result : Except PatalaSettlementError UInt64} (h : Exclusive s)
    (ht : s.tasks.lookup id = some t) (hflight : t.stage.inFlight = true) :
    Exclusive
      ⟨{ s.settlement with
          creditedReferences :=
            insert t.call.reference s.settlement.creditedReferences },
        s.tasks.insert id ⟨t.call, Stage.returned result⟩⟩ := by
  intro j u hj hu
  rcases FiniteMap.lookup_insert_eq_some.mp hj with ⟨hid, htask⟩ | ⟨hid, hold⟩
  · subst htask
    cases hu
  · have hbefore := h j u hold hu
    have hne : u.call.reference ≠ t.call.reference :=
      (h id t ht hflight).alone j u hid hold hu
    constructor
    · simp only [Finset.mem_insert, not_or]
      exact ⟨hne, hbefore.notCredited⟩
    · intro k v hk hv hvflight
      rcases FiniteMap.lookup_insert_eq_some.mp hv with ⟨_, hvtask⟩ | ⟨_, hvold⟩
      · subst hvtask
        cases hvflight
      · exact hbefore.alone k v hk hvold hvflight

/-!
# At most one credit for each reference
-/

/-- Each credit applied so far is in the set, or its call is about to put it there. -/
def Accounted (s : System) (credits : List CreditCall) : Prop :=
  forall c, c ∈ credits ->
    c.reference ∈ s.settlement.creditedReferences ∨
      exists j u, s.tasks.lookup j = some u ∧ u.stage.inserting = true ∧
        u.call.reference = c.reference

structure SingleCredit (s : System) (credits : List CreditCall) : Prop where
  exclusive : Exclusive s
  accounted : Accounted s credits
  nodup : (credits.map CreditCall.reference).Nodup

theorem accounted_insert {s : System} {id : Nat} {task : Task} (h : Accounted s credits)
    (hrefs : s.settlement.creditedReferences ⊆ settlement.creditedReferences)
    (hkeep : forall t, s.tasks.lookup id = some t -> t.stage.inserting = true ->
      t.call.reference ∈ settlement.creditedReferences ∨
        (task.stage.inserting = true ∧ task.call.reference = t.call.reference)) :
    Accounted ⟨settlement, s.tasks.insert id task⟩ credits := by
  intro c hc
  rcases h c hc with hin | ⟨j, u, hu, hinserting, href⟩
  · exact Or.inl (hrefs hin)
  · by_cases hj : j = id
    · subst hj
      rcases hkeep u hu hinserting with hin | ⟨htask, hsame⟩
      · rw [<- href]
        exact Or.inl hin
      · exact Or.inr ⟨j, task, Finmap.lookup_insert _, htask, hsame.trans href⟩
    · refine Or.inr ⟨j, u, ?_, hinserting, href⟩
      rw [Finmap.lookup_insert_of_ne _ hj]
      exact hu

theorem singleCredit_move {s : System} {id : Nat} {t : Task} (h : SingleCredit s credits)
    (ht : s.tasks.lookup id = some t)
    (hrefs : settlement.creditedReferences = s.settlement.creditedReferences)
    (hfree : stage.inFlight = true -> Free s id t.call.reference)
    (hkeep : t.stage.inserting = true -> stage.inserting = true) :
    SingleCredit ⟨settlement, s.tasks.insert id ⟨t.call, stage⟩⟩ credits where
  exclusive := exclusive_insert h.exclusive hrefs hfree
  accounted := by
    apply accounted_insert h.accounted
    · rw [hrefs]
    · intro u hu hinserting
      rw [ht] at hu
      cases hu
      exact Or.inr ⟨hkeep hinserting, rfl⟩
  nodup := h.nodup

theorem singleCredit_credit {s : System} {id : Nat} {t : Task} {newBalance : UInt64}
    (h : SingleCredit s credits) (ht : s.tasks.lookup id = some t) (hstage : t.stage = Stage.credit)
    (hrefs : settlement.creditedReferences = s.settlement.creditedReferences) :
    SingleCredit
      ⟨settlement,
        s.tasks.insert id ⟨t.call, Stage.insertReference newBalance⟩⟩
      (credits ++ [t.call]) := by
  have hfree : Free s id t.call.reference :=
    h.exclusive id t ht (by rw [hstage]; rfl)
  have hmoved : SingleCredit
      ⟨settlement, s.tasks.insert id ⟨t.call, Stage.insertReference newBalance⟩⟩
      credits :=
    singleCredit_move h ht hrefs (fun _ => hfree) (fun _ => rfl)
  have hnew : forall c, c ∈ credits -> c.reference ≠ t.call.reference := by
    intro c hc
    rcases h.accounted c hc with hin | ⟨j, u, hu, hinserting, href⟩
    · intro heq
      exact hfree.notCredited (heq ▸ hin)
    · rw [<- href]
      have hflight : u.stage.inFlight = true := by
        cases hu' : u.stage <;> simp_all [Stage.inserting, Stage.inFlight]
      apply hfree.alone j u _ hu hflight
      intro hj
      subst hj
      rw [ht] at hu
      injection hu with htu
      rw [<- htu, hstage] at hinserting
      cases hinserting
  constructor
  · exact hmoved.exclusive
  · intro c hc
    rcases List.mem_append.mp hc with hold | hself
    · exact hmoved.accounted c hold
    · rw [List.mem_singleton.mp hself]
      exact Or.inr ⟨id, _, Finmap.lookup_insert _, rfl, rfl⟩
  · rw [List.map_append, List.nodup_append]
    refine ⟨h.nodup, List.nodup_singleton _, ?_⟩
    intro a ha b hb
    rcases List.mem_map.mp ha with ⟨c, hc, hca⟩
    rw [List.mem_singleton.mp hb, <- hca]
    exact hnew c hc

theorem singleCredit_insertReference {s : System} {id : Nat} {t : Task} {newBalance : UInt64}
    {result : Except PatalaSettlementError UInt64} (h : SingleCredit s credits)
    (ht : s.tasks.lookup id = some t) (hstage : t.stage = Stage.insertReference newBalance) :
    SingleCredit
      ⟨{ s.settlement with
          creditedReferences :=
            insert t.call.reference s.settlement.creditedReferences },
        s.tasks.insert id ⟨t.call, Stage.returned result⟩⟩
      credits where
  exclusive := exclusive_insertReference h.exclusive ht (by rw [hstage]; rfl)
  accounted := by
    apply accounted_insert h.accounted
    · exact Finset.subset_insert _ _
    · intro u hu _
      rw [ht] at hu
      cases hu
      exact Or.inl (Finset.mem_insert_self _ _)
  nodup := h.nodup

theorem singleCredit_resume {s : System} {id : Nat} {t : Task} (h : SingleCredit s credits)
    (ht : s.tasks.lookup id = some t) (hguard : LookupExclusive s (Event.resume id)) :
    SingleCredit (s.step (Event.resume id)) (credits ++ s.credited (Event.resume id)) := by
  rw [System.step_resume ht, System.credited_resume ht]
  cases hstage : t.stage with
  | credit =>
      rw [if_pos rfl]
      exact singleCredit_credit h ht hstage rfl
  | insertReference newBalance =>
      rw [if_neg (by simp), List.append_nil]
      exact singleCredit_insertReference h ht hstage
  | lookup =>
      rw [if_neg (by simp), List.append_nil, advance]
      split
      · apply singleCredit_move h ht rfl
        · simp [Stage.inFlight]
        · simp [hstage, Stage.inserting]
      · rename_i hmiss
        apply singleCredit_move h ht rfl
        · intro _
          exact ⟨hmiss, fun j u _ hu hflight => hguard t ht hstage hmiss j u hu hflight⟩
        · simp [hstage, Stage.inserting]
  | awaitVerify =>
      rw [if_neg (by simp), List.append_nil, advance]
      apply singleCredit_move h ht rfl
      · intro _
        exact h.exclusive id t ht (by rw [hstage]; rfl)
      · simp [hstage, Stage.inserting]
  | checkCurrency =>
      rw [if_neg (by simp), List.append_nil, advance]
      split <;> apply singleCredit_move h ht rfl <;>
        simp [hstage, Stage.inFlight, Stage.inserting]
  | reportBalance | returned result =>
      rw [if_neg (by simp), List.append_nil, advance]
      apply singleCredit_move h ht rfl <;>
        simp [hstage, Stage.inFlight, Stage.inserting]

theorem receive_inFlight (h : (receive verdict stage).inFlight = true) : stage.inFlight = true := by
  cases stage with
  | awaitVerify => rfl
  | checkCurrency | lookup | reportBalance | credit | insertReference b | returned r => exact h

theorem receive_inserting (h : stage.inserting = true) :
    (receive verdict stage).inserting = true := by
  cases stage <;> first | exact h | cases h

theorem singleCredit_step (s : System) (credits : List CreditCall) (e : Event)
    (h : SingleCredit s credits) (hguard : LookupExclusive s e) :
    SingleCredit (s.step e) (credits ++ s.credited e) := by
  cases e with
  | spawn id call =>
      rw [System.credited, List.append_nil]
      cases hid : s.tasks.lookup id with
      | none =>
          rw [System.step_spawn hid]
          constructor
          · apply exclusive_insert h.exclusive rfl
            intro hflight
            cases hflight
          · apply accounted_insert h.accounted (Finset.Subset.refl _)
            intro t ht
            rw [hid] at ht
            cases ht
          · exact h.nodup
      | some t =>
          rw [System.step_spawn_of_some hid]
          exact h
  | resume id =>
      cases hid : s.tasks.lookup id with
      | none =>
          rw [System.step_resume_of_none hid, System.credited_resume_of_none hid,
            List.append_nil]
          exact h
      | some t => exact singleCredit_resume h hid hguard
  | verified id verdict =>
      rw [System.credited, List.append_nil]
      cases hid : s.tasks.lookup id with
      | none =>
          rw [System.step_verified_of_none hid]
          exact h
      | some t =>
          rw [System.step_verified hid]
          apply singleCredit_move h hid rfl
          · intro hflight
            exact h.exclusive id t hid (receive_inFlight hflight)
          · exact receive_inserting
  | charge payer amount currency =>
      have hrefs := charge_creditedReferences s.settlement payer amount currency
      rw [System.credited, List.append_nil, System.step]
      constructor
      · intro id t ht hflight
        have hbefore := h.exclusive id t ht hflight
        exact ⟨by rw [hrefs]; exact hbefore.notCredited, hbefore.alone⟩
      · intro c hc
        rw [hrefs]
        exact h.accounted c hc
      · exact h.nodup

theorem singleCredit_start (currency : String) : SingleCredit (System.start currency) [] where
  exclusive := by
    intro id t ht
    cases ht
  accounted := by
    intro c hc
    cases hc
  nodup := List.nodup_nil

/-!
# The condition is exact

A call past its missed lookup and a second one about to miss too: the rail
answers both, and both credit.
-/

def InsertingCredited (s : System) (credits : List CreditCall) : Prop :=
  forall id t, s.tasks.lookup id = some t -> t.stage.inserting = true ->
    t.call ∈ credits

theorem insertingCredited_insert {s : System} {more : List CreditCall} {id : Nat} {task : Task}
    (h : InsertingCredited s credits)
    (htask : task.stage.inserting = true -> task.call ∈ credits ++ more) :
    InsertingCredited ⟨settlement, s.tasks.insert id task⟩ (credits ++ more) := by
  intro j u hj hinserting
  rcases FiniteMap.lookup_insert_eq_some.mp hj with ⟨_, hu⟩ | ⟨_, hold⟩
  · subst hu
    exact htask hinserting
  · exact List.mem_append_left _ (h j u hold hinserting)

theorem advance_inserting {p : PatalaSettlement} {c : CreditCall}
    (h : (advance p c stage).2.inserting = true) : stage = Stage.credit := by
  cases stage with
  | credit => rfl
  | checkCurrency | lookup =>
      rw [advance] at h
      split at h <;> cases h
  | reportBalance | awaitVerify | insertReference b | returned r => cases h

theorem receive_inserting_iff (h : (receive verdict stage).inserting = true) :
    stage.inserting = true := by
  cases stage with
  | insertReference b => rfl
  | awaitVerify =>
      cases verdict with
      | error e => cases h
      | ok b => cases b <;> cases h
  | checkCurrency | lookup | reportBalance | credit | returned r => exact h

theorem insertingCredited_step (s : System) (credits : List CreditCall) (e : Event)
    (h : InsertingCredited s credits) : InsertingCredited (s.step e) (credits ++ s.credited e) := by
  cases e with
  | spawn id call =>
      cases hid : s.tasks.lookup id with
      | none =>
          rw [System.step_spawn hid]
          apply insertingCredited_insert h
          intro hinserting
          cases hinserting
      | some t =>
          rw [System.step_spawn_of_some hid, System.credited, List.append_nil]
          exact h
  | resume id =>
      cases hid : s.tasks.lookup id with
      | none =>
          rw [System.step_resume_of_none hid, System.credited_resume_of_none hid,
            List.append_nil]
          exact h
      | some t =>
          rw [System.step_resume hid, System.credited_resume hid]
          apply insertingCredited_insert h
          intro hinserting
          rw [if_pos (advance_inserting hinserting)]
          exact List.mem_append_right _ (List.mem_singleton.mpr rfl)
  | verified id verdict =>
      cases hid : s.tasks.lookup id with
      | none =>
          rw [System.step_verified_of_none hid, System.credited, List.append_nil]
          exact h
      | some t =>
          rw [System.step_verified hid]
          apply insertingCredited_insert h
          intro hinserting
          exact List.mem_append_left _ (h id t hid (receive_inserting_iff hinserting))
  | charge payer amount currency =>
      rw [System.credited, List.append_nil]
      exact h

theorem insertingCredited_run (currency : String) (events : List Event) :
    InsertingCredited
      (after System.step (System.start currency) events)
      (emitted System.step System.credited (System.start currency)
        events) := by
  have hstart : InsertingCredited (System.start currency) [] := by
    intro id t ht
    cases ht
  exact invariant_emitted
    (fun s credits e h _ => insertingCredited_step s credits e h) hstart
    (stepsMeet_true System.step _ events)

/-- The rail confirms the receipts of both calls, one after the other. -/
def confirmBoth (id j : Nat) : List Event :=
  [Event.verified id (Except.ok true), Event.resume id,
    Event.verified j (Except.ok true), Event.resume j]

theorem emitted_confirmBoth {s : System} {id j : Nat} {t u : Task}
    (ht : s.tasks.lookup id = some t) (hu : s.tasks.lookup j = some u)
    (hstage : t.stage = Stage.lookup)
    (hmiss : t.call.reference ∉ s.settlement.creditedReferences) (hne : j ≠ id) :
    emitted System.step System.credited s
        (Event.resume id :: confirmBoth id j) =
      t.call ::
        (if receive (Except.ok true) u.stage = Stage.credit then [u.call] else []) := by
  have hlookup : advance s.settlement t.call t.stage =
      (s.settlement, Stage.awaitVerify) := by
    rw [hstage, advance, if_neg hmiss]
  have hsilent : s.credited (Event.resume id) = [] := by
    rw [System.credited_resume ht, hstage, if_neg (by simp)]
  rw [emitted, hsilent, List.nil_append, System.step_resume ht, hlookup]
  rw [confirmBoth, emitted, System.credited, List.nil_append,
    System.step_verified (Finmap.lookup_insert _)]
  rw [emitted, System.credited_resume (Finmap.lookup_insert _),
    System.step_resume (Finmap.lookup_insert _), receive, if_pos rfl]
  -- the second call has not moved
  have hother : forall a b c : Task,
      (((s.tasks.insert id a).insert id b).insert id c).lookup j = some u := by
    intro a b c
    rw [Finmap.lookup_insert_of_ne _ hne, Finmap.lookup_insert_of_ne _ hne,
      Finmap.lookup_insert_of_ne _ hne, hu]
  rw [emitted, System.credited, List.nil_append,
    System.step_verified (hother _ _ _)]
  rw [emitted, System.credited_resume (Finmap.lookup_insert _),
    emitted, List.append_nil]
  rfl

theorem receive_ok_of_inFlight (h : stage.inFlight = true) (hnot : stage.inserting = false) :
    receive (Except.ok true) stage = Stage.credit := by
  cases stage with
  | awaitVerify | credit => rfl
  | insertReference b => cases hnot
  | checkCurrency | lookup | reportBalance | returned r => cases h

theorem not_creditsOnce_of_two_inFlight {currency : String} {events : List Event}
    {id j : Nat} {t u : Task}
    (ht : (after System.step (System.start currency) events).tasks.lookup id = some t)
    (hu : (after System.step (System.start currency) events).tasks.lookup j = some u)
    (hstage : t.stage = Stage.lookup)
    (hmiss : t.call.reference ∉
      (after System.step (System.start currency)
        events).settlement.creditedReferences)
    (hflight : u.stage.inFlight = true) (hsame : u.call.reference = t.call.reference) :
    Not (CreditsOnce (System.start currency) (events ++ Event.resume id :: confirmBoth id j)) := by
  have hne : j ≠ id := by
    intro heq
    rw [heq, ht] at hu
    injection hu with htu
    rw [<- htu, hstage] at hflight
    cases hflight
  unfold CreditsOnce
  rw [emitted_append, emitted_confirmBoth ht hu hstage hmiss hne]
  intro hnodup
  cases hinserting : u.stage.inserting with
  | false =>
      rw [if_pos (receive_ok_of_inFlight hflight hinserting), List.map_append] at hnodup
      have hpair := (List.nodup_append.mp hnodup).2.1
      rw [List.map_cons, List.map_singleton, List.nodup_cons] at hpair
      exact hpair.1 (List.mem_singleton.mpr hsame.symm)
  | true =>
      -- the second call has already credited the reference
      have hbefore := insertingCredited_run currency events j u hu hinserting
      rw [List.map_append] at hnodup
      exact (List.nodup_append.mp hnodup).2.2 _ (List.mem_map_of_mem hbefore) _
        List.mem_cons_self hsame

/--
In every interleaving in which no lookup misses a reference while another call
is in flight on it, each reference is credited at most once.  The condition is
exact: after any run, a step that breaks it lets the run continue to a second
credit of the same reference.
-/
theorem creditFromReceipt_credits_once_iff_lookupExclusive (currency : String)
    (events : List Event) :
    (Transition.StepsMeet System.step LookupExclusive (System.start currency)
        events ->
      CreditsOnce (System.start currency) events) ∧
    (forall e,
      Not (LookupExclusive
        (after System.step (System.start currency) events) e) ->
      exists rest,
        Not (CreditsOnce (System.start currency) (events ++ e :: rest))) := by
  constructor
  · intro hmeet
    exact (invariant_emitted singleCredit_step
      (singleCredit_start currency) hmeet).nodup
  · intro e hbroken
    cases e with
    | resume id =>
        unfold LookupExclusive at hbroken
        push Not at hbroken
        rcases hbroken with ⟨t, ht, hstage, hmiss, j, u, hu, hflight, hsame⟩
        exact ⟨confirmBoth id j,
          not_creditsOnce_of_two_inFlight ht hu hstage hmiss hflight hsame⟩
    | spawn id call | verified id verdict | charge payer amount currency =>
        exact absurd trivial hbroken

def topUp : CreditCall where
  payer := [1]
  receipt := ⟨"fake", 1000, "USDC", "ref-1", [114], 0⟩

def callAlone (id : Nat) (call : CreditCall) : List Event :=
  [Event.spawn id call, Event.resume id, Event.resume id,
    Event.verified id (Except.ok true), Event.resume id, Event.resume id]

/-- Two calls, the second after the first, credit their reference once. -/
theorem topUp_twice_in_sequence_credits_once :
    CreditsOnce (System.start "USDC") (callAlone 0 topUp ++ callAlone 1 topUp) := by
  apply (creditFromReceipt_credits_once_iff_lookupExclusive "USDC" _).1
  decide

def topUpTwiceTogether : List Event :=
  [Event.spawn 0 topUp, Event.spawn 1 topUp, Event.resume 0, Event.resume 1,
    Event.resume 0, Event.resume 1] ++ confirmBoth 0 1

theorem topUp_twice_together_credits_twice :
    Not (forall (currency : String) (events : List Event),
      CreditsOnce (System.start currency) events) := by
  intro hall
  exact absurd (hall "USDC" topUpTwiceTogether) (by
    unfold CreditsOnce
    decide)

end Billing
end Ephor
