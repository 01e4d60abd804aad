import Ephor.Billing.Patala
import Mathlib.Algebra.Order.Ring.Int

/-!
# The reference settlement ledger

`InMemoryLedger` of `pier-billing`: payer balances, and a house account that
mirrors every deposit and charge.  Amounts are `u64` and accounts are `i64`; each
step casts the amount, which wraps from `2 ^ 63` on.  Additions on accounts wrap
as they do in a release build.
-/

namespace Ephor
namespace Billing

open Foundation

inductive LedgerError where
  | insufficientBalance (payer : Bytes) (balance : Int64) (amount : UInt64)
      (currency : String)
deriving DecidableEq

structure InMemoryLedger where
  balances : FiniteMap (Bytes × String) Int64
  house : FiniteMap String Int64
  nextTxSeq : UInt64

namespace InMemoryLedger

def new : InMemoryLedger where
  balances := ∅
  house := ∅
  nextTxSeq := 0

def balance (l : InMemoryLedger) (payer : Bytes) (currency : String) : Int64 :=
  (l.balances.lookup (payer, currency)).getD 0

def houseAccount (l : InMemoryLedger) (currency : String) : Int64 :=
  (l.house.lookup currency).getD 0

def deposit (l : InMemoryLedger) (payer : Bytes) (amount : UInt64)
    (currency : String) : InMemoryLedger :=
  { l with
    balances := l.balances.insert (payer, currency)
      (l.balance payer currency + amount.toInt64)
    house := l.house.insert currency (l.houseAccount currency - amount.toInt64) }

def charge (l : InMemoryLedger) (payer : Bytes) (amount : UInt64)
    (currency : String) : Except LedgerError SettlementReceipt × InMemoryLedger :=
  if l.balance payer currency < amount.toInt64 then
    (Except.error
      (LedgerError.insufficientBalance payer (l.balance payer currency) amount
        currency), l)
  else
    (Except.ok ⟨payer, amount, currency, l.nextTxSeq⟩,
      { balances := l.balances.insert (payer, currency)
          (l.balance payer currency - amount.toInt64)
        house := l.house.insert currency
          (l.houseAccount currency + amount.toInt64)
        nextTxSeq := l.nextTxSeq + 1 })

end InMemoryLedger

inductive LedgerOp where
  | deposit (payer : Bytes) (amount : UInt64) (currency : String)
  | charge (payer : Bytes) (amount : UInt64) (currency : String)

namespace InMemoryLedger

def step (l : InMemoryLedger) : LedgerOp -> InMemoryLedger
  | LedgerOp.deposit payer amount currency => l.deposit payer amount currency
  | LedgerOp.charge payer amount currency => (l.charge payer amount currency).2

/-!
# What the books promise
-/

def payerSum (l : InMemoryLedger) (currency : String) : Int :=
  FiniteMap.sumBy (fun k v => if k.2 = currency then v.toInt else 0) l.balances

structure Sound (l : InMemoryLedger) : Prop where
  nonneg : forall payer currency, 0 <= (l.balance payer currency).toInt
  nets : forall currency, l.payerSum currency + (l.houseAccount currency).toInt = 0

/--
A charge succeeds exactly when the balance covers the amount, and then takes
exactly the amount from that balance; a refused charge changes nothing.
-/
def Exact (l : InMemoryLedger) : LedgerOp -> Prop
  | LedgerOp.deposit _ _ _ => True
  | LedgerOp.charge payer amount currency =>
      ((exists receipt, (l.charge payer amount currency).1 = Except.ok receipt) <->
        (amount.toNat : Int) <= (l.balance payer currency).toInt) ∧
      (forall receipt, (l.charge payer amount currency).1 = Except.ok receipt ->
        ((l.charge payer amount currency).2.balance payer currency).toInt =
            (l.balance payer currency).toInt - amount.toNat ∧
          forall payer' currency', (payer', currency') ≠ (payer, currency) ->
            (l.charge payer amount currency).2.balance payer' currency' =
              l.balance payer' currency') ∧
      (forall e, (l.charge payer amount currency).1 = Except.error e ->
        (l.charge payer amount currency).2 = l)

/-- The books of a run from the empty ledger are sound and its charges exact. -/
def KeepsBooks (ops : List LedgerOp) : Prop :=
  Transition.StepsMeet step (fun l op => l.Exact op ∧ (l.step op).Sound) new ops

/--
The amounts that the casts and sums of a step can carry.  A charge must fit in
`i64`.  A deposit must leave the balance in `i64` and the house account too; one
that carries the balance past `2 ^ 64` wraps twice and lands on a balance again.
-/
def Fits (l : InMemoryLedger) : LedgerOp -> Prop
  | LedgerOp.deposit payer amount currency =>
      ((l.balance payer currency).toInt + amount.toNat < 2 ^ 63 ∧
          -2 ^ 63 <= (l.houseAccount currency).toInt - amount.toNat) ∨
        2 ^ 64 <= (l.balance payer currency).toInt + amount.toNat
  | LedgerOp.charge _ amount _ => amount.toNat < 2 ^ 63

/-!
# Casts and sums
-/

theorem toInt_amount (amount : UInt64) :
    amount.toInt64.toInt = (amount.toNat : Int).bmod (2 ^ 64) := by
  change amount.toBitVec.toInt = _
  rw [BitVec.toInt_eq_toNat_bmod]
  rfl

def setAccounts (l : InMemoryLedger) (payer : Bytes) (currency : String)
    (balance house : Int64) (seq : UInt64) : InMemoryLedger where
  balances := l.balances.insert (payer, currency) balance
  house := l.house.insert currency house
  nextTxSeq := seq

theorem balance_setAccounts (l : InMemoryLedger) (payer payer' : Bytes)
    (currency currency' : String) (balance house : Int64) (seq : UInt64) :
    (l.setAccounts payer currency balance house seq).balance payer' currency' =
      if (payer', currency') = (payer, currency) then balance
      else l.balance payer' currency' := by
  unfold InMemoryLedger.balance setAccounts
  split
  · rename_i heq
    rw [heq, Finmap.lookup_insert]
    rfl
  · rename_i hne
    rw [Finmap.lookup_insert_of_ne _ hne]

theorem houseAccount_setAccounts (l : InMemoryLedger) (payer : Bytes)
    (currency currency' : String) (balance house : Int64) (seq : UInt64) :
    (l.setAccounts payer currency balance house seq).houseAccount currency' =
      if currency' = currency then house else l.houseAccount currency' := by
  unfold houseAccount setAccounts
  split
  · rename_i heq
    rw [heq, Finmap.lookup_insert]
    rfl
  · rename_i hne
    rw [Finmap.lookup_insert_of_ne _ hne]

theorem payerSum_setAccounts (l : InMemoryLedger) (payer : Bytes)
    (currency currency' : String) (balance house : Int64) (seq : UInt64) :
    (l.setAccounts payer currency balance house seq).payerSum currency' =
      if currency' = currency then
        l.payerSum currency - (l.balance payer currency).toInt + balance.toInt
      else
        l.payerSum currency' := by
  unfold payerSum setAccounts InMemoryLedger.balance
  cases hold : l.balances.lookup (payer, currency) with
  | none =>
      rw [FiniteMap.sumBy_insert_of_none _ _ hold]
      by_cases hcur : currency' = currency
      · simp [hcur]
      · simp [hcur, Ne.symm hcur]
  | some old =>
      rw [FiniteMap.sumBy_insert _ _ hold]
      by_cases hcur : currency' = currency
      · simp [hcur]
      · simp [hcur, Ne.symm hcur]

variable {l : InMemoryLedger} {payer : Bytes} {amount : UInt64} {currency : String}

theorem sound_setAccounts_iff (h : l.Sound) (payer : Bytes) (currency : String)
    (balance house : Int64) (seq : UInt64) :
    (l.setAccounts payer currency balance house seq).Sound <->
      0 <= balance.toInt ∧
        house.toInt = (l.houseAccount currency).toInt +
          (l.balance payer currency).toInt - balance.toInt := by
  have hnets := h.nets currency
  constructor
  · intro hsound
    have hnonneg := hsound.nonneg payer currency
    have hzero := hsound.nets currency
    rw [balance_setAccounts, if_pos rfl] at hnonneg
    rw [payerSum_setAccounts, if_pos rfl, houseAccount_setAccounts,
      if_pos rfl] at hzero
    constructor
    · exact hnonneg
    · omega
  · intro hset
    constructor
    · intro payer' currency'
      rw [balance_setAccounts]
      split
      · exact hset.1
      · exact h.nonneg payer' currency'
    · intro currency'
      rw [payerSum_setAccounts, houseAccount_setAccounts]
      split
      · omega
      · exact h.nets currency'

theorem balance_le_payerSum (h : l.Sound) (payer : Bytes) (currency : String) :
    (l.balance payer currency).toInt <= l.payerSum currency := by
  have hpos : forall (k : Bytes × String) (v : Int64), l.balances.lookup k = some v ->
      0 <= (if k.2 = currency then v.toInt else 0) := by
    intro k v hv
    split
    · have hk := h.nonneg k.1 k.2
      unfold InMemoryLedger.balance at hk
      rw [hv] at hk
      exact hk
    · exact Int.le_refl 0
  cases hlook : l.balances.lookup (payer, currency) with
  | none =>
      unfold InMemoryLedger.balance
      rw [hlook]
      exact FiniteMap.sumBy_nonneg hpos
  | some v =>
      unfold InMemoryLedger.balance
      rw [hlook]
      have hle := FiniteMap.le_sumBy hpos hlook
      rw [if_pos rfl] at hle
      exact hle

/-!
# One step
-/

theorem deposit_iff_fits (h : l.Sound) (payer : Bytes) (amount : UInt64) (currency : String) :
    (l.Exact (LedgerOp.deposit payer amount currency) ∧
        (l.deposit payer amount currency).Sound) <->
      l.Fits (LedgerOp.deposit payer amount currency) := by
  have hset : (l.deposit payer amount currency).Sound <-> _ :=
    sound_setAccounts_iff h payer currency (l.balance payer currency + amount.toInt64)
      (l.houseAccount currency - amount.toInt64) l.nextTxSeq
  have hb := h.nonneg payer currency
  have hbhigh := Int64.toInt_lt (l.balance payer currency)
  have hsum := balance_le_payerSum h payer currency
  have hnets := h.nets currency
  have hhlow := Int64.le_toInt (l.houseAccount currency)
  have hamount : amount.toNat < 2 ^ 64 := amount.toNat_lt
  have hbalance := Int64.toInt_add (l.balance payer currency) amount.toInt64
  have hhouse := Int64.toInt_sub (l.houseAccount currency) amount.toInt64
  rw [toInt_amount] at hbalance hhouse
  simp only [Int.bmod_def] at hbalance hhouse
  rw [hset]
  unfold Exact Fits
  constructor
  · intro hsound
    omega
  · intro hfits
    refine ⟨trivial, ?_, ?_⟩
    · omega
    · omega

theorem charge_eq_setAccounts (h : Not (l.balance payer currency < amount.toInt64)) :
    l.charge payer amount currency =
      (Except.ok ⟨payer, amount, currency, l.nextTxSeq⟩,
        l.setAccounts payer currency (l.balance payer currency - amount.toInt64)
          (l.houseAccount currency + amount.toInt64) (l.nextTxSeq + 1)) := by
  unfold charge
  rw [if_neg h]
  rfl

theorem toInt_amount_of_fits (h : amount.toNat < 2 ^ 63) : amount.toInt64.toInt = amount.toNat := by
  rw [toInt_amount, Int.bmod_def]
  omega

theorem charge_ok_of_not_fits (hb : 0 <= (l.balance payer currency).toInt)
    (h : 2 ^ 63 <= amount.toNat) :
    exists receipt, (l.charge payer amount currency).1 = Except.ok receipt := by
  have hamount : amount.toNat < 2 ^ 64 := amount.toNat_lt
  have hnot : Not (l.balance payer currency < amount.toInt64) := by
    rw [Int64.lt_iff_toInt_lt, toInt_amount, Int.bmod_def]
    omega
  rw [charge_eq_setAccounts hnot]
  exact ⟨_, rfl⟩

theorem exact_charge_refused (hfits : amount.toNat < 2 ^ 63)
    (h : l.balance payer currency < amount.toInt64) :
    l.Exact (LedgerOp.charge payer amount currency) ∧ (l.charge payer amount currency).2 = l := by
  have hrefused : l.charge payer amount currency =
      (Except.error (LedgerError.insufficientBalance payer
        (l.balance payer currency) amount currency), l) := by
    unfold charge
    rw [if_pos h]
  rw [Int64.lt_iff_toInt_lt, toInt_amount_of_fits hfits] at h
  rw [Exact, hrefused]
  refine ⟨⟨⟨?_, ?_⟩, ?_, ?_⟩, rfl⟩
  · intro hok
    rcases hok with ⟨receipt, hok⟩
    cases hok
  · intro hcovers
    exact absurd h (Int.not_lt.mpr hcovers)
  · intro receipt hok
    cases hok
  · intro e _
    rfl

theorem exact_charge_taken (hl : l.Sound) (hfits : amount.toNat < 2 ^ 63)
    (h : Not (l.balance payer currency < amount.toInt64)) :
    l.Exact (LedgerOp.charge payer amount currency) ∧ (l.charge payer amount currency).2.Sound := by
  have hcast := toInt_amount_of_fits hfits
  have hb := hl.nonneg payer currency
  have hbhigh := Int64.toInt_lt (l.balance payer currency)
  have hsum := balance_le_payerSum hl payer currency
  have hnets := hl.nets currency
  have hhlow := Int64.le_toInt (l.houseAccount currency)
  have hbalance := Int64.toInt_sub (l.balance payer currency) amount.toInt64
  have hhouse := Int64.toInt_add (l.houseAccount currency) amount.toInt64
  rw [hcast, Int.bmod_def] at hbalance hhouse
  rw [Exact, charge_eq_setAccounts h]
  rw [Int64.lt_iff_toInt_lt, hcast] at h
  refine ⟨⟨⟨?_, ?_⟩, ?_, ?_⟩, ?_⟩
  · intro _
    exact Int.not_lt.mp h
  · intro _
    exact ⟨_, rfl⟩
  · intro receipt _
    rw [balance_setAccounts, if_pos rfl]
    constructor
    · omega
    · intro payer' currency' hne
      rw [balance_setAccounts, if_neg hne]
  · intro e herror
    cases herror
  · apply (sound_setAccounts_iff hl payer currency _ _ _).mpr
    constructor
    · omega
    · omega

theorem charge_iff_fits (h : l.Sound) (payer : Bytes) (amount : UInt64) (currency : String) :
    (l.Exact (LedgerOp.charge payer amount currency) ∧
        (l.charge payer amount currency).2.Sound) <->
      l.Fits (LedgerOp.charge payer amount currency) := by
  constructor
  · intro hexact
    change amount.toNat < 2 ^ 63
    refine Nat.lt_of_not_le ?_
    intro hlarge
    have hbhigh := Int64.toInt_lt (l.balance payer currency)
    have hok := charge_ok_of_not_fits (h.nonneg payer currency) hlarge
    have hcovers := hexact.1.1.mp hok
    omega
  · intro hfits
    by_cases hlow : l.balance payer currency < amount.toInt64
    · rcases exact_charge_refused hfits hlow with ⟨hexact, hsame⟩
      rw [hsame]
      exact ⟨hexact, h⟩
    · exact exact_charge_taken h hfits hlow

theorem step_iff_fits (h : l.Sound) (op : LedgerOp) :
    (l.Exact op ∧ (l.step op).Sound) <-> l.Fits op := by
  cases op with
  | deposit payer amount currency => exact deposit_iff_fits h payer amount currency
  | charge payer amount currency => exact charge_iff_fits h payer amount currency

/-!
# Whole runs
-/

theorem sound_new : new.Sound where
  nonneg := fun _ _ => Int.le_refl 0
  nets := fun _ => rfl

/-- A run keeps its books if and only if every step can carry its amount. -/
theorem keepsBooks_iff_amounts_fit (ops : List LedgerOp) :
    KeepsBooks ops <-> Transition.StepsMeet step Fits new ops := by
  apply Transition.stepsMeet_congr (fun _ _ _ h => h.2) ?_ ops sound_new
  intro l op hsound
  exact step_iff_fits hsound op

/-- A charge of `u64::MAX` against an empty account succeeds and credits it. -/
theorem charge_of_max_mints :
    Not (KeepsBooks
        [LedgerOp.charge [1] (UInt64.ofNat (2 ^ 64 - 1)) "USDC"]) ∧
      (new.charge [1] (UInt64.ofNat (2 ^ 64 - 1)) "USDC").1 =
        Except.ok ⟨[1], UInt64.ofNat (2 ^ 64 - 1), "USDC", 0⟩ ∧
      (new.charge [1] (UInt64.ofNat (2 ^ 64 - 1)) "USDC").2.balance [1] "USDC" = 1 := by
  refine ⟨?_, ?_, ?_⟩
  · intro h
    have hcovers := h.1.1.1.mp ⟨_, rfl⟩
    exact absurd hcovers (by decide)
  · rfl
  · rfl

end InMemoryLedger

end Billing
end Ephor
