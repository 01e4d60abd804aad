import Ephor.Billing.Tariff
import Mathlib.Algebra.Order.Floor.Div

/-!
# Recommended prices

`pricing.rs` of `pier-billing`: from the monthly costs of a host to a starting point for
its tariff.  Usage is rounded up to batches and fixed costs are spread over an assumed
number of them, all in saturating words.
-/

namespace Ephor
namespace Billing

open Foundation
open Foundation.Saturating (saturate)

/-!
# Batches
-/

def recommendedCurrency : String := "USD"

def recommendedMarkupX100 : UInt64 := 200

def assumedMonthlyGib : UInt64 := 500

def assumedMonthlyMessages : UInt64 := 200000

def assumedMonthlyComputeSeconds : UInt64 := 500000

def bytesForwardedBatchBytes : UInt64 := 1024 * 1024 * 1024

def messagesBatch : UInt64 := 1000

def computeSecondsBatch : UInt64 := 1000

def nominalPeriodSeconds : UInt64 := 30 * 24 * 3600

def ceilDiv (a b : UInt64) : UInt64 :=
  if b = 0 then 0 else saturatingAdd a (b - 1) / b

def gibBillingUnits (rawBytes : UInt64) : UInt64 :=
  ceilDiv rawBytes bytesForwardedBatchBytes

def messagesBillingUnits (rawMessages : UInt64) : UInt64 :=
  ceilDiv rawMessages messagesBatch

def computeSecondsBillingUnits (rawComputeSeconds : UInt64) : UInt64 :=
  ceilDiv rawComputeSeconds computeSecondsBatch

/-!
# Schedules
-/

structure HostingProfile where
  name : String
  baseVpsUsdCentsPerMonth : UInt64
  bandwidthUsdCentsPerGib : UInt64
  reachabilityPremiumUsdCentsPerMonth : UInt64

inductive CoordinatorPricingKind where
  | relay
  | mediaRelay
  | reachabilityAdapter
  | gateway
  | compute
deriving DecidableEq

def markup (cost : UInt64) : UInt64 :=
  ceilDiv (saturatingMul cost recommendedMarkupX100) 100

def scheduleAt (kind : ResourceKind) (cost : UInt64) : TariffSchedule where
  currency := recommendedCurrency
  prices := FiniteMap.insertAll [(kind, max (markup cost) 1)] ∅
  freeAllowance := ∅
  periodSeconds := some nominalPeriodSeconds

def bandwidthSchedule (profile : HostingProfile) (includeReachabilityPremium : Bool) :
    TariffSchedule :=
  let fixed := saturatingAdd profile.baseVpsUsdCentsPerMonth
    (if includeReachabilityPremium then profile.reachabilityPremiumUsdCentsPerMonth else 0)
  let amortizedPerGib := ceilDiv fixed assumedMonthlyGib
  let costPerGib := saturatingAdd profile.bandwidthUsdCentsPerGib amortizedPerGib
  scheduleAt ResourceKind.bytesForwarded costPerGib

def gatewaySchedule (profile : HostingProfile) : TariffSchedule :=
  let fixed := saturatingAdd profile.baseVpsUsdCentsPerMonth
    profile.reachabilityPremiumUsdCentsPerMonth
  let amortizedPer1kMessages := ceilDiv fixed (assumedMonthlyMessages / messagesBatch)
  scheduleAt ResourceKind.messages amortizedPer1kMessages

def computeSchedule (profile : HostingProfile) : TariffSchedule :=
  let fixed := profile.baseVpsUsdCentsPerMonth
  let amortizedPer1kSeconds :=
    ceilDiv fixed (assumedMonthlyComputeSeconds / computeSecondsBatch)
  scheduleAt ResourceKind.computeSeconds amortizedPer1kSeconds

def recommendedTariff (kind : CoordinatorPricingKind) (profile : HostingProfile) :
    TariffSchedule :=
  match kind with
  | CoordinatorPricingKind.relay => bandwidthSchedule profile false
  | CoordinatorPricingKind.mediaRelay => bandwidthSchedule profile false
  | CoordinatorPricingKind.reachabilityAdapter => bandwidthSchedule profile true
  | CoordinatorPricingKind.gateway => gatewaySchedule profile
  | CoordinatorPricingKind.compute => computeSchedule profile

/-!
# What a price has to recover
-/

namespace CoordinatorPricingKind

def priced : CoordinatorPricingKind -> ResourceKind
  | relay => ResourceKind.bytesForwarded
  | mediaRelay => ResourceKind.bytesForwarded
  | reachabilityAdapter => ResourceKind.bytesForwarded
  | gateway => ResourceKind.messages
  | compute => ResourceKind.computeSeconds

/-- The assumed batches of a month: GiB, or thousands of messages or seconds. -/
def monthlyBatches : CoordinatorPricingKind -> Nat
  | relay => assumedMonthlyGib.toNat
  | mediaRelay => assumedMonthlyGib.toNat
  | reachabilityAdapter => assumedMonthlyGib.toNat
  | gateway => (assumedMonthlyMessages / messagesBatch).toNat
  | compute => (assumedMonthlyComputeSeconds / computeSecondsBatch).toNat

/-- The fixed cost of a month, with the premium where an ingress is scarce. -/
def fixedMonthly (profile : HostingProfile) : CoordinatorPricingKind -> Nat
  | relay => profile.baseVpsUsdCentsPerMonth.toNat
  | mediaRelay => profile.baseVpsUsdCentsPerMonth.toNat
  | reachabilityAdapter => profile.baseVpsUsdCentsPerMonth.toNat +
      profile.reachabilityPremiumUsdCentsPerMonth.toNat
  | gateway => profile.baseVpsUsdCentsPerMonth.toNat +
      profile.reachabilityPremiumUsdCentsPerMonth.toNat
  | compute => profile.baseVpsUsdCentsPerMonth.toNat

/-- The bandwidth that a batch costs; messages and seconds are no volume of bytes. -/
def bandwidthPerBatch (profile : HostingProfile) : CoordinatorPricingKind -> Nat
  | relay => profile.bandwidthUsdCentsPerGib.toNat
  | mediaRelay => profile.bandwidthUsdCentsPerGib.toNat
  | reachabilityAdapter => profile.bandwidthUsdCentsPerGib.toNat
  | gateway => 0
  | compute => 0

def monthlyCost (profile : HostingProfile) (kind : CoordinatorPricingKind) : Nat :=
  kind.fixedMonthly profile + kind.monthlyBatches * kind.bandwidthPerBatch profile

/-- The assumed month brings in twice what it costs. -/
def Recovers (profile : HostingProfile) (kind : CoordinatorPricingKind) : Prop :=
  exists price, (recommendedTariff kind profile).prices.lookup kind.priced = some price ∧
    2 * kind.monthlyCost profile <= price.toNat * kind.monthlyBatches

/-- The fixed cost is at most the last whole share of the batches, and the cost of a batch
doubles within the percents that a word holds. -/
def InRange (profile : HostingProfile) (kind : CoordinatorPricingKind) : Prop :=
  kind.fixedMonthly profile <= kind.monthlyBatches * ((2 ^ 64 - 1) / kind.monthlyBatches) ∧
    kind.monthlyCost profile <= kind.monthlyBatches * ((2 ^ 64 - 1) / 200)

end CoordinatorPricingKind

/-!
# Saturating arithmetic on numbers
-/

theorem toNat_saturatingAdd_min (a b : UInt64) :
    (saturatingAdd a b).toNat = min (a.toNat + b.toNat) (2 ^ 64 - 1) := by
  have h := toNat_saturatingAdd a b
  unfold saturate maxAmount at h
  omega

theorem toNat_saturatingMul_min (a b : UInt64) :
    (saturatingMul a b).toNat = min (a.toNat * b.toNat) (2 ^ 64 - 1) := by
  have h := toNat_saturatingMul a b
  rw [<- Int.natCast_mul] at h
  unfold saturate maxAmount at h
  omega

theorem toNat_ceilDiv {a b : UInt64} (hb : b ≠ 0) :
    (ceilDiv a b).toNat = min (a.toNat ⌈/⌉ b.toNat) ((2 ^ 64 - 1) / b.toNat) := by
  have hpos : 0 < b.toNat := by
    apply Nat.pos_of_ne_zero
    intro h
    exact hb (UInt64.toNat_inj.mp h)
  have hpred : (b - 1).toNat = b.toNat - 1 :=
    UInt64.toNat_sub_of_le _ _ (UInt64.le_iff_toNat_le.mpr hpos)
  rw [ceilDiv, if_neg hb, UInt64.toNat_div, toNat_saturatingAdd_min, hpred,
    Nat.ceilDiv_eq_add_pred_div, Nat.add_sub_assoc hpos]
  rcases Nat.le_total (a.toNat + (b.toNat - 1)) (2 ^ 64 - 1) with hle | hle
  · rw [Nat.min_eq_left hle, Nat.min_eq_left (Nat.div_le_div_right hle)]
  · rw [Nat.min_eq_right hle, Nat.min_eq_right (Nat.div_le_div_right hle)]

theorem ceilDiv_exact_iff {a b : UInt64} (hb : b ≠ 0) :
    (ceilDiv a b).toNat = a.toNat ⌈/⌉ b.toNat <->
      a.toNat <= b.toNat * ((2 ^ 64 - 1) / b.toNat) := by
  have hpos : 0 < b.toNat := by
    apply Nat.pos_of_ne_zero
    intro h
    exact hb (UInt64.toNat_inj.mp h)
  rw [toNat_ceilDiv hb, min_eq_left_iff]
  exact ceilDiv_le_iff_le_mul hpos

theorem toNat_markup (cost : UInt64) :
    (markup cost).toNat = 2 * min cost.toNat ((2 ^ 64 - 1) / 200) := by
  have hmul := toNat_saturatingMul_min cost recommendedMarkupX100
  have hdiv := @toNat_ceilDiv (saturatingMul cost recommendedMarkupX100) 100 (by decide)
  have hmarkup : recommendedMarkupX100.toNat = 200 := rfl
  have hpercent : (100 : UInt64).toNat = 100 := rfl
  rw [hmul, hmarkup, hpercent, Nat.ceilDiv_eq_add_pred_div] at hdiv
  change (ceilDiv (saturatingMul cost recommendedMarkupX100) 100).toNat = _
  rw [hdiv]
  omega

theorem toNat_max_one (a : UInt64) : (max a 1).toNat = max a.toNat 1 := by
  change (if a <= 1 then 1 else a).toNat = _
  split
  · rename_i hle
    exact (max_eq_right (UInt64.le_iff_toNat_le.mp hle)).symm
  · rename_i hlt
    exact (max_eq_left (Nat.le_of_lt (UInt64.lt_iff_toNat_lt.mp (UInt64.not_le.mp hlt)))).symm

namespace CoordinatorPricingKind

theorem recovers_scheduleAt {profile : HostingProfile} {kind : CoordinatorPricingKind}
    {cost : UInt64} (h : recommendedTariff kind profile = scheduleAt kind.priced cost) :
    kind.Recovers profile <->
      2 * kind.monthlyCost profile <=
        max (2 * min cost.toNat ((2 ^ 64 - 1) / 200)) 1 * kind.monthlyBatches := by
  have hprice : (recommendedTariff kind profile).prices.lookup kind.priced =
      some (max (markup cost) 1) := by
    rw [h]
    change ((∅ : FiniteMap ResourceKind UInt64).insert kind.priced (max (markup cost) 1)).lookup
      kind.priced = _
    exact Finmap.lookup_insert _
  unfold Recovers
  rw [hprice]
  constructor
  · intro hrecovers
    rcases hrecovers with ⟨price, heq, hle⟩
    injection heq with heq
    rw [<- heq, toNat_max_one, toNat_markup] at hle
    exact hle
  · intro hle
    refine ⟨_, rfl, ?_⟩
    rw [toNat_max_one, toNat_markup]
    exact hle

theorem recovers_fiveHundred {f bandwidth cost : Nat}
    (hcost : cost = min (bandwidth + min (min f (2 ^ 64 - 1) ⌈/⌉ 500) ((2 ^ 64 - 1) / 500))
      (2 ^ 64 - 1)) :
    2 * (f + 500 * bandwidth) <= max (2 * min cost ((2 ^ 64 - 1) / 200)) 1 * 500 <->
      f <= 500 * ((2 ^ 64 - 1) / 500) ∧
        f + 500 * bandwidth <= 500 * ((2 ^ 64 - 1) / 200) := by
  rw [Nat.ceilDiv_eq_add_pred_div] at hcost
  omega

theorem recovers_twoHundred {f cost : Nat}
    (hcost : cost = min (min f (2 ^ 64 - 1) ⌈/⌉ 200) ((2 ^ 64 - 1) / 200)) :
    2 * (f + 200 * 0) <= max (2 * min cost ((2 ^ 64 - 1) / 200)) 1 * 200 <->
      f <= 200 * ((2 ^ 64 - 1) / 200) ∧ f + 200 * 0 <= 200 * ((2 ^ 64 - 1) / 200) := by
  rw [Nat.ceilDiv_eq_add_pred_div] at hcost
  omega

theorem toNat_costPerGib (bandwidth fixed : UInt64) :
    (saturatingAdd bandwidth (ceilDiv fixed assumedMonthlyGib)).toNat =
      min (bandwidth.toNat + min (fixed.toNat ⌈/⌉ 500) ((2 ^ 64 - 1) / 500)) (2 ^ 64 - 1) := by
  rw [toNat_saturatingAdd_min, toNat_ceilDiv (by decide)]
  rfl

theorem recovers_bandwidth {profile : HostingProfile} {kind : CoordinatorPricingKind}
    {premium : Bool} (h : recommendedTariff kind profile = bandwidthSchedule profile premium)
    (hpriced : kind.priced = ResourceKind.bytesForwarded)
    (hfixed : kind.fixedMonthly profile = profile.baseVpsUsdCentsPerMonth.toNat +
      (if premium then profile.reachabilityPremiumUsdCentsPerMonth else 0).toNat)
    (hbatches : kind.monthlyBatches = 500)
    (hbandwidth : kind.bandwidthPerBatch profile = profile.bandwidthUsdCentsPerGib.toNat) :
    kind.Recovers profile <-> kind.InRange profile := by
  rw [bandwidthSchedule, <- hpriced] at h
  rw [recovers_scheduleAt h, InRange, monthlyCost, hfixed, hbatches, hbandwidth]
  apply recovers_fiveHundred
  rw [toNat_costPerGib, toNat_saturatingAdd_min]

theorem recovers_gateway (profile : HostingProfile) :
    gateway.Recovers profile <-> gateway.InRange profile := by
  have hbatches : gateway.monthlyBatches = 200 := rfl
  have hbandwidth : gateway.bandwidthPerBatch profile = 0 := rfl
  have hfixed : gateway.fixedMonthly profile = profile.baseVpsUsdCentsPerMonth.toNat +
      profile.reachabilityPremiumUsdCentsPerMonth.toNat := rfl
  have hschedule : recommendedTariff gateway profile = scheduleAt gateway.priced
      (ceilDiv (saturatingAdd profile.baseVpsUsdCentsPerMonth
        profile.reachabilityPremiumUsdCentsPerMonth)
        (assumedMonthlyMessages / messagesBatch)) := rfl
  rw [recovers_scheduleAt hschedule, InRange, monthlyCost, hfixed, hbatches, hbandwidth]
  apply recovers_twoHundred
  rw [toNat_ceilDiv (by decide), toNat_saturatingAdd_min]
  rfl

theorem recovers_compute (profile : HostingProfile) :
    compute.Recovers profile <-> compute.InRange profile := by
  have hbatches : compute.monthlyBatches = 500 := rfl
  have hbandwidth : compute.bandwidthPerBatch profile = 0 := rfl
  have hfixed : compute.fixedMonthly profile = profile.baseVpsUsdCentsPerMonth.toNat := rfl
  have hschedule : recommendedTariff compute profile = scheduleAt compute.priced
      (ceilDiv profile.baseVpsUsdCentsPerMonth
        (assumedMonthlyComputeSeconds / computeSecondsBatch)) := rfl
  have hcost : (ceilDiv profile.baseVpsUsdCentsPerMonth
      (assumedMonthlyComputeSeconds / computeSecondsBatch)).toNat =
        min (profile.baseVpsUsdCentsPerMonth.toNat ⌈/⌉ 500) ((2 ^ 64 - 1) / 500) :=
    toNat_ceilDiv (by decide)
  have hword : profile.baseVpsUsdCentsPerMonth.toNat <= 2 ^ 64 - 1 :=
    Nat.le_pred_of_lt profile.baseVpsUsdCentsPerMonth.toNat_lt
  rw [recovers_scheduleAt hschedule, InRange, monthlyCost, hfixed, hbatches, hbandwidth]
  apply recovers_fiveHundred
  rw [hcost, Nat.min_eq_left hword]
  omega

theorem recovers_iff_inRange (profile : HostingProfile) (kind : CoordinatorPricingKind) :
    kind.Recovers profile <-> kind.InRange profile := by
  cases kind with
  | relay => exact @recovers_bandwidth _ relay false rfl rfl rfl rfl rfl
  | mediaRelay => exact @recovers_bandwidth _ mediaRelay false rfl rfl rfl rfl rfl
  | reachabilityAdapter =>
      exact @recovers_bandwidth _ reachabilityAdapter true rfl rfl rfl rfl rfl
  | gateway => exact recovers_gateway profile
  | compute => exact recovers_compute profile

end CoordinatorPricingKind

/-- Usage is rounded up exactly, and a recommended price recovers the assumed month twice. -/
def NeverUnderRecovers (rawBytes rawMessages rawComputeSeconds : UInt64)
    (profile : HostingProfile) (kind : CoordinatorPricingKind) : Prop :=
  (gibBillingUnits rawBytes).toNat = rawBytes.toNat ⌈/⌉ (1024 * 1024 * 1024) ∧
    (messagesBillingUnits rawMessages).toNat = rawMessages.toNat ⌈/⌉ 1000 ∧
    (computeSecondsBillingUnits rawComputeSeconds).toNat = rawComputeSeconds.toNat ⌈/⌉ 1000 ∧
    kind.Recovers profile

/-- The quantities end in a batch that a word holds whole, and the profile is in range. -/
theorem neverUnderRecovers_iff (rawBytes rawMessages rawComputeSeconds : UInt64)
    (profile : HostingProfile) (kind : CoordinatorPricingKind) :
    NeverUnderRecovers rawBytes rawMessages rawComputeSeconds profile kind <->
      rawBytes.toNat <= 2 ^ 64 - 2 ^ 30 ∧
      rawMessages.toNat <= 1000 * ((2 ^ 64 - 1) / 1000) ∧
      rawComputeSeconds.toNat <= 1000 * ((2 ^ 64 - 1) / 1000) ∧
      kind.InRange profile := by
  unfold NeverUnderRecovers
  rw [kind.recovers_iff_inRange profile]
  have hgib : (gibBillingUnits rawBytes).toNat = rawBytes.toNat ⌈/⌉ (1024 * 1024 * 1024) <->
      rawBytes.toNat <= 2 ^ 64 - 2 ^ 30 :=
    @ceilDiv_exact_iff rawBytes bytesForwardedBatchBytes (by decide)
  have hmessages : (messagesBillingUnits rawMessages).toNat = rawMessages.toNat ⌈/⌉ 1000 <->
      rawMessages.toNat <= 1000 * ((2 ^ 64 - 1) / 1000) :=
    @ceilDiv_exact_iff rawMessages messagesBatch (by decide)
  have hseconds : (computeSecondsBillingUnits rawComputeSeconds).toNat =
      rawComputeSeconds.toNat ⌈/⌉ 1000 <->
        rawComputeSeconds.toNat <= 1000 * ((2 ^ 64 - 1) / 1000) :=
    @ceilDiv_exact_iff rawComputeSeconds computeSecondsBatch (by decide)
  rw [hgib, hmessages, hseconds]

def dearestHost : HostingProfile where
  name := "dearest"
  baseVpsUsdCentsPerMonth := UInt64.ofNat (2 ^ 64 - 1)
  bandwidthUsdCentsPerGib := 0
  reachabilityPremiumUsdCentsPerMonth := 0

theorem plain_host_recovers :
    NeverUnderRecovers 1 1 1 { dearestHost with baseVpsUsdCentsPerMonth := 500 }
      CoordinatorPricingKind.compute :=
  (neverUnderRecovers_iff _ _ _ _ _).mpr (by
    refine ⟨?_, ?_, ?_, ?_, ?_⟩ <;> decide)

/-- The largest number of bytes is billed one GiB short, and the dearest host below cost. -/
theorem under_recovers_largest :
    (gibBillingUnits (UInt64.ofNat (2 ^ 64 - 1))).toNat = 2 ^ 34 - 1 ∧
      (2 ^ 64 - 1) ⌈/⌉ (1024 * 1024 * 1024) = 2 ^ 34 ∧
      Not (CoordinatorPricingKind.compute.Recovers dearestHost) ∧
      Not (forall rawBytes rawMessages rawComputeSeconds profile kind,
        NeverUnderRecovers rawBytes rawMessages rawComputeSeconds profile kind) := by
  have hdearest : Not (CoordinatorPricingKind.compute.Recovers dearestHost) := by
    rw [CoordinatorPricingKind.recovers_iff_inRange]
    intro hrange
    exact absurd hrange.1 (by decide)
  refine ⟨by decide, by decide, hdearest, ?_⟩
  intro hall
  exact hdearest (hall 0 0 0 dearestHost CoordinatorPricingKind.compute).2.2.2

end Billing
end Ephor
