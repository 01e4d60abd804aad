import Ephor.Billing.Prepaid
import Ephor.Foundation.OrderedMap
import Ephor.Foundation.Saturating
import Mathlib.Algebra.Ring.Int.Defs

/-!
# Tariffs

`TariffSchedule` of `pier-billing` and its evaluation of a usage.  The loop subtracts,
multiplies and adds with saturation, and it stops at the first kind without a price.
-/

namespace Ephor
namespace Billing

open Foundation
open Foundation.Saturating (saturate)
open ResourceKind

/-!
# Saturating words
-/

def saturatingSub (a b : UInt64) : UInt64 :=
  if b <= a then a - b else 0

def saturatingMul (a b : UInt64) : UInt64 :=
  if a.toNat * b.toNat < 2 ^ 64 then a * b else UInt64.ofNat (2 ^ 64 - 1)

def maxAmount : Int := 2 ^ 64 - 1

theorem maxAmount_nonneg : 0 <= maxAmount := by
  decide

theorem toNat_saturatingSub (a b : UInt64) :
    ((saturatingSub a b).toNat : Int) = max 0 ((a.toNat : Int) - b.toNat) := by
  unfold saturatingSub
  split
  · rename_i hle
    have hnat := UInt64.le_iff_toNat_le.mp hle
    rw [UInt64.toNat_sub_of_le _ _ hle, Int.ofNat_sub hnat]
    exact (max_eq_right (sub_nonneg.mpr (Int.ofNat_le.mpr hnat))).symm
  · rename_i hlt
    have hnat : a.toNat < b.toNat := UInt64.lt_iff_toNat_lt.mp (UInt64.not_le.mp hlt)
    exact (max_eq_left (sub_nonpos.mpr (Int.ofNat_le.mpr (Nat.le_of_lt hnat)))).symm

theorem toNat_cut {exact : Nat} {word : UInt64} (h : exact < 2 ^ 64 -> word.toNat = exact) :
    ((if exact < 2 ^ 64 then word else UInt64.ofNat (2 ^ 64 - 1)).toNat : Int) =
      saturate maxAmount exact := by
  unfold saturate maxAmount
  split
  · rename_i hfits
    rw [h hfits]
    omega
  · rename_i hlarge
    have htop : (UInt64.ofNat (2 ^ 64 - 1)).toNat = 2 ^ 64 - 1 := by decide
    rw [htop]
    omega

theorem toNat_saturatingAdd (a b : UInt64) :
    ((saturatingAdd a b).toNat : Int) = saturate maxAmount ((a.toNat : Int) + b.toNat) := by
  apply toNat_cut
  intro hfits
  rw [UInt64.toNat_add, Nat.mod_eq_of_lt hfits]

theorem toNat_saturatingMul (a b : UInt64) :
    ((saturatingMul a b).toNat : Int) = saturate maxAmount ((a.toNat : Int) * b.toNat) := by
  rw [<- Int.natCast_mul]
  apply toNat_cut
  intro hfits
  rw [UInt64.toNat_mul, Nat.mod_eq_of_lt hfits]

theorem foldl_cut {item : Type} {f : item -> Int} {items : List item}
    (hf : forall x, x ∈ items -> 0 <= f x) :
    items.foldl (fun total x => saturate maxAmount (total + saturate maxAmount (f x))) 0 =
      saturate maxAmount (items.map f).sum := by
  have hfold := Saturating.foldl_saturate maxAmount maxAmount_nonneg f items hf (Int.le_refl 0)
  rw [Saturating.saturate_of_le maxAmount_nonneg, zero_add] at hfold
  exact hfold

/-!
# Schedules
-/

def ResourceKind.all : List ResourceKind :=
  [bytesForwarded, connections, messages, computeSeconds]

theorem ResourceKind.mem_all (kind : ResourceKind) : kind ∈ all := by
  cases kind <;> decide

theorem ResourceKind.nodup_all : all.Nodup := by
  decide

inductive BillingError (cborError : Type) where
  | badEncoding (e : cborError)
  | malformed (detail : String)
  | unpricedKind (kind : ResourceKind)
deriving DecidableEq

structure TariffSchedule where
  currency : String
  prices : FiniteMap ResourceKind UInt64
  freeAllowance : FiniteMap ResourceKind UInt64
  periodSeconds : Option UInt64

abbrev Usage := FiniteMap ResourceKind UInt64

variable {usage : Usage}

namespace TariffSchedule

variable (schedule : TariffSchedule)

def free (kind : ResourceKind) : UInt64 :=
  (schedule.freeAllowance.lookup kind).getD 0

def lineItem (kind : ResourceKind) (units unitPrice : UInt64) : LineItem where
  kind := kind
  meteredUnits := units
  freeUnitsApplied := min (schedule.free kind) units
  billedUnits := saturatingSub units (schedule.free kind)
  unitPrice := unitPrice
  amount := saturatingMul (saturatingSub units (schedule.free kind)) unitPrice

variable {cborError : Type}

/-- The loop of `evaluate`, with the amount and the lines so far. -/
def evaluateLoop : List (ResourceKind × UInt64) -> UInt64 -> List LineItem ->
    Except (BillingError cborError) (UInt64 × List LineItem)
  | [], amount, lineItems => Except.ok (amount, lineItems)
  | (kind, units) :: rest, amount, lineItems =>
      match schedule.prices.lookup kind with
      | none => Except.error (BillingError.unpricedKind kind)
      | some unitPrice =>
          let item := schedule.lineItem kind units unitPrice
          evaluateLoop rest (saturatingAdd amount item.amount) (lineItems ++ [item])

def evaluate (usage : Usage) : Except (BillingError cborError) Bill :=
  match schedule.evaluateLoop (usage.inOrder all) 0 [] with
  | Except.ok (amount, lineItems) => Except.ok ⟨schedule.currency, amount, lineItems⟩
  | Except.error e => Except.error e

/-!
# What the loop computes
-/

def price (kind : ResourceKind) : UInt64 :=
  (schedule.prices.lookup kind).getD 0

def lineOf (e : ResourceKind × UInt64) : LineItem :=
  schedule.lineItem e.1 e.2 (schedule.price e.1)

def Priced (entries : List (ResourceKind × UInt64)) : Prop :=
  forall e, e ∈ entries -> schedule.prices.lookup e.1 ≠ none

variable {schedule}

theorem priced_cons {e : ResourceKind × UInt64} {entries : List (ResourceKind × UInt64)} :
    schedule.Priced (e :: entries) <->
      schedule.prices.lookup e.1 ≠ none ∧ schedule.Priced entries :=
  List.forall_mem_cons

theorem evaluateLoop_priced {entries : List (ResourceKind × UInt64)}
    (h : schedule.Priced entries) (amount : UInt64) (lineItems : List LineItem) :
    (schedule.evaluateLoop entries amount lineItems : Except (BillingError cborError) _) =
      Except.ok
        (entries.foldl (fun total e => saturatingAdd total (schedule.lineOf e).amount) amount,
          lineItems ++ entries.map schedule.lineOf) := by
  induction entries generalizing amount lineItems with
  | nil => rw [evaluateLoop, List.foldl_nil, List.map_nil, List.append_nil]
  | cons e entries ih =>
      rcases priced_cons.mp h with ⟨hprice, hrest⟩
      rcases Option.ne_none_iff_exists'.mp hprice with ⟨unitPrice, hunit⟩
      have hline : schedule.lineOf e = schedule.lineItem e.1 e.2 unitPrice := by
        rw [lineOf, price, hunit, Option.getD_some]
      rw [evaluateLoop, hunit]
      change schedule.evaluateLoop entries
        (saturatingAdd amount (schedule.lineItem e.1 e.2 unitPrice).amount)
        (lineItems ++ [schedule.lineItem e.1 e.2 unitPrice]) = _
      rw [<- hline, ih hrest, List.foldl_cons, List.map_cons, List.append_assoc]
      rfl

variable (cborError) in
theorem evaluateLoop_unpriced {entries : List (ResourceKind × UInt64)}
    (h : Not (schedule.Priced entries)) (amount : UInt64) (lineItems : List LineItem) :
    exists e, e ∈ entries ∧ schedule.prices.lookup e.1 = none ∧
      (schedule.evaluateLoop entries amount lineItems : Except (BillingError cborError) _) =
        Except.error (BillingError.unpricedKind e.1) := by
  induction entries generalizing amount lineItems with
  | nil =>
      exfalso
      apply h
      intro e he
      cases he
  | cons e entries ih =>
      rw [evaluateLoop]
      cases hprice : schedule.prices.lookup e.1 with
      | none => exact ⟨e, List.mem_cons_self .., hprice, rfl⟩
      | some unitPrice =>
          have hrest : Not (schedule.Priced entries) := by
            intro hpriced
            apply h
            apply priced_cons.mpr
            rw [hprice]
            exact ⟨Option.some_ne_none unitPrice, hpriced⟩
          rcases ih hrest (saturatingAdd amount (schedule.lineItem e.1 e.2 unitPrice).amount)
            (lineItems ++ [schedule.lineItem e.1 e.2 unitPrice]) with ⟨e', hmem, hnone, herror⟩
          exact ⟨e', List.mem_cons_of_mem e hmem, hnone, herror⟩

theorem priced_inOrder :
    schedule.Priced (usage.inOrder all) <->
      forall kind units, usage.lookup kind = some units ->
        schedule.prices.lookup kind ≠ none := by
  constructor
  · intro h kind units hunits
    exact h (kind, units) ((FiniteMap.mem_inOrder mem_all).mpr hunits)
  · intro h e he
    exact h e.1 e.2 (FiniteMap.lookup_of_mem_inOrder he)

variable (schedule) in
def billOf (usage : Usage) : Bill where
  currency := schedule.currency
  amount := (usage.inOrder all).foldl
    (fun total e => saturatingAdd total (schedule.lineOf e).amount) 0
  lineItems := (usage.inOrder all).map schedule.lineOf

theorem evaluate_priced (h : schedule.Priced (usage.inOrder all)) :
    (schedule.evaluate usage : Except (BillingError cborError) Bill) =
      Except.ok (schedule.billOf usage) := by
  rw [evaluate, evaluateLoop_priced h, List.nil_append]
  rfl

variable (cborError) in
theorem evaluate_unpriced (h : Not (schedule.Priced (usage.inOrder all))) :
    exists kind units, usage.lookup kind = some units ∧ schedule.prices.lookup kind = none ∧
      (schedule.evaluate usage : Except (BillingError cborError) Bill) =
        Except.error (BillingError.unpricedKind kind) := by
  rcases evaluateLoop_unpriced cborError h 0 [] with ⟨e, he, hnone, herror⟩
  refine ⟨e.1, e.2, FiniteMap.lookup_of_mem_inOrder he, hnone, ?_⟩
  rw [evaluate, herror]

theorem evaluate_eq_ok {bill : Bill}
    (h : (schedule.evaluate usage : Except (BillingError cborError) Bill) = Except.ok bill) :
    schedule.Priced (usage.inOrder all) ∧ bill = schedule.billOf usage := by
  by_cases hpriced : schedule.Priced (usage.inOrder all)
  · rw [evaluate_priced hpriced] at h
    injection h with h
    exact ⟨hpriced, h.symm⟩
  · rcases evaluate_unpriced cborError hpriced with ⟨kind, units, _, _, herror⟩
    rw [herror] at h
    cases h

theorem evaluate_fails_iff :
    (exists e, (schedule.evaluate usage : Except (BillingError cborError) Bill) =
        Except.error e) <->
      exists kind units, usage.lookup kind = some units ∧ schedule.prices.lookup kind = none := by
  constructor
  · intro h
    rcases h with ⟨e, he⟩
    have hpriced : Not (schedule.Priced (usage.inOrder all)) := by
      intro hpriced
      rw [evaluate_priced hpriced] at he
      cases he
    rcases evaluate_unpriced cborError hpriced with ⟨kind, units, hmem, hnone, _⟩
    exact ⟨kind, units, hmem, hnone⟩
  · intro h
    rcases h with ⟨kind, units, hmem, hnone⟩
    have hpriced : Not (schedule.Priced (usage.inOrder all)) := by
      intro hpriced
      exact priced_inOrder.mp hpriced kind units hmem hnone
    rcases evaluate_unpriced cborError hpriced with ⟨kind', _, _, _, herror⟩
    exact ⟨BillingError.unpricedKind kind', herror⟩

/-!
# The exact amount
-/

variable (schedule) in
/-- What the units of a kind cost beyond the free ones. -/
def charge (kind : ResourceKind) (units : UInt64) : Int :=
  max 0 ((units.toNat : Int) - (schedule.free kind).toNat) * (schedule.price kind).toNat

variable (schedule) in
def exactAmount (usage : Usage) : Int :=
  usage.sumBy schedule.charge

theorem charge_nonneg (kind : ResourceKind) (units : UInt64) : 0 <= schedule.charge kind units :=
  Int.mul_nonneg (le_max_left _ _) (Int.natCast_nonneg _)

theorem charge_zero (kind : ResourceKind) : schedule.charge kind 0 = 0 := by
  have hfree : max 0 (((0 : UInt64).toNat : Int) - (schedule.free kind).toNat) = 0 := by
    apply max_eq_left
    rw [UInt64.toNat_zero]
    omega
  rw [charge, hfree, Int.zero_mul]

theorem charge_mono (kind : ResourceKind) {units units' : UInt64} (h : units <= units') :
    schedule.charge kind units <= schedule.charge kind units' := by
  have hunits : (units.toNat : Int) <= units'.toNat :=
    Int.ofNat_le.mpr (UInt64.le_iff_toNat_le.mp h)
  exact Int.mul_le_mul_of_nonneg_right (max_le_max_left 0 (sub_le_sub_right hunits _))
    (Int.natCast_nonneg _)

theorem toNat_amount_lineOf (e : ResourceKind × UInt64) :
    ((schedule.lineOf e).amount.toNat : Int) = saturate maxAmount (schedule.charge e.1 e.2) := by
  change ((saturatingMul (saturatingSub e.2 (schedule.free e.1))
    (schedule.price e.1)).toNat : Int) = _
  rw [toNat_saturatingMul, toNat_saturatingSub]
  rfl

theorem sum_charge (usage : Usage) :
    ((usage.inOrder all).map fun e => schedule.charge e.1 e.2).sum = schedule.exactAmount usage :=
  FiniteMap.sum_inOrder nodup_all mem_all schedule.charge usage

theorem toNat_foldl (entries : List (ResourceKind × UInt64)) (amount : UInt64) :
    ((entries.foldl (fun total e => saturatingAdd total (schedule.lineOf e).amount)
        amount).toNat : Int) =
      entries.foldl
        (fun total e => saturate maxAmount
          (total + saturate maxAmount (schedule.charge e.1 e.2))) (amount.toNat : Int) := by
  induction entries generalizing amount with
  | nil => rfl
  | cons e entries ih =>
      rw [List.foldl_cons, List.foldl_cons, ih, toNat_saturatingAdd, toNat_amount_lineOf]

theorem toNat_amount_billOf (usage : Usage) :
    ((schedule.billOf usage).amount.toNat : Int) =
      saturate maxAmount (schedule.exactAmount usage) := by
  have hnonneg : forall e, e ∈ usage.inOrder all ->
      0 <= schedule.charge e.1 e.2 := by
    intro e _
    exact charge_nonneg e.1 e.2
  have hloop := @toNat_foldl schedule (usage.inOrder all) 0
  rw [UInt64.toNat_zero, Int.natCast_zero, foldl_cut hnonneg, sum_charge] at hloop
  exact hloop

theorem amount_billOf_mono {usage' : Usage}
    (h : forall kind, (usage.lookup kind).getD 0 <= (usage'.lookup kind).getD 0) :
    (schedule.billOf usage).amount <= (schedule.billOf usage').amount := by
  have hsum : schedule.exactAmount usage <= schedule.exactAmount usage' := by
    rw [<- sum_charge, <- sum_charge,
      FiniteMap.sum_inOrder_getD _ schedule.charge 0 charge_zero,
      FiniteMap.sum_inOrder_getD _ schedule.charge 0 charge_zero]
    apply List.sum_le_sum
    intro kind _
    exact charge_mono kind (h kind)
  apply UInt64.le_iff_toNat_le.mpr
  apply Int.ofNat_le.mp
  rw [toNat_amount_billOf, toNat_amount_billOf]
  exact Saturating.saturate_mono maxAmount hsum

/-!
# The lines
-/

theorem units_lineItem (kind : ResourceKind) (units unitPrice : UInt64) :
    units.toNat = (schedule.lineItem kind units unitPrice).freeUnitsApplied.toNat +
      (schedule.lineItem kind units unitPrice).billedUnits.toNat := by
  change units.toNat = (if schedule.free kind <= units then schedule.free kind else units).toNat +
    (if schedule.free kind <= units then units - schedule.free kind else 0).toNat
  split
  · rename_i hle
    rw [UInt64.toNat_sub_of_le _ _ hle,
      Nat.add_sub_cancel' (UInt64.le_iff_toNat_le.mp hle)]
  · rw [UInt64.toNat_zero, Nat.add_zero]

theorem visits_billOf (usage : Usage) :
    FiniteMap.Visits ((schedule.billOf usage).lineItems.map LineItem.kind) usage := by
  have hkinds : (schedule.billOf usage).lineItems.map LineItem.kind =
      (usage.inOrder all).map Prod.fst := by
    rw [billOf, List.map_map]
    rfl
  rw [hkinds]
  exact FiniteMap.visits_inOrder nodup_all mem_all usage

theorem mem_billOf {item : LineItem} (h : item ∈ (schedule.billOf usage).lineItems) :
    usage.lookup item.kind = some item.meteredUnits ∧
      item.meteredUnits.toNat = item.freeUnitsApplied.toNat + item.billedUnits.toNat := by
  rcases List.mem_map.mp h with ⟨e, he, heq⟩
  rw [<- heq]
  exact ⟨FiniteMap.lookup_of_mem_inOrder he, units_lineItem e.1 e.2 (schedule.price e.1)⟩

theorem sum_billOf (h : schedule.exactAmount usage <= maxAmount) :
    ((schedule.billOf usage).lineItems.map fun item => (item.amount.toNat : Int)).sum =
      (schedule.billOf usage).amount.toNat := by
  have hline : forall e, e ∈ usage.inOrder all ->
      ((schedule.lineOf e).amount.toNat : Int) = schedule.charge e.1 e.2 := by
    intro e he
    have hle : schedule.charge e.1 e.2 <= schedule.exactAmount usage :=
      FiniteMap.le_sumBy (fun kind units _ => charge_nonneg kind units)
        (FiniteMap.lookup_of_mem_inOrder he)
    rw [toNat_amount_lineOf, Saturating.saturate_of_le (le_trans hle h)]
  rw [toNat_amount_billOf, Saturating.saturate_of_le h, <- sum_charge, billOf, List.map_map]
  exact congrArg List.sum (List.map_congr_left hline)

end TariffSchedule

end Billing
end Ephor
