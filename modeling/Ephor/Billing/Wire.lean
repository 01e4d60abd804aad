import Ephor.Billing.Tariff
import Ephor.Economics.Kotva

/-!
# Billing on the wire

The canonical CBOR of `TariffSchedule` and of `BilledOperation` in `pier-billing`.  The
codecs are written out by hand, and the maps of a schedule are keyed by the wire tags of
the resource kinds.
-/

namespace Ephor
namespace Billing

open Foundation
open Foundation.CanonicalCbor
open Economics (Kotva)
open ResourceKind

variable {s : TariffSchedule} {op : BilledOperation}

/-!
# Wire tags
-/

def ResourceKind.wireTag : ResourceKind -> UInt64
  | bytesForwarded => 1
  | connections => 2
  | messages => 3
  | computeSeconds => 4

def ResourceKind.fromWireTag : UInt64 -> Option ResourceKind
  | 1 => some bytesForwarded
  | 2 => some connections
  | 3 => some messages
  | 4 => some computeSeconds
  | _ => none

theorem fromWireTag_eq_some {tag : UInt64} {kind : ResourceKind} :
    fromWireTag tag = some kind <-> tag = kind.wireTag := by
  constructor
  · intro h
    unfold fromWireTag at h
    split at h
    all_goals cases h
    all_goals rfl
  · intro h
    rw [h]
    cases kind <;> rfl

theorem pairwise_wireTag : all.Pairwise fun kind kind' => kind.wireTag < kind'.wireTag := by
  decide

/-!
# Errors
-/

inductive ReceiptError (cborError descriptorError : Type) where
  | badEncoding (e : cborError)
  | malformed (detail : String)
  | signature (e : descriptorError)
deriving DecidableEq

def okOr {ε α : Type} (x : Option α) (error : ε) : Except ε α :=
  match x with
  | some a => Except.ok a
  | none => Except.error error

theorem okOr_eq_ok {ε α : Type} {x : Option α} {error : ε} {a : α} :
    okOr x error = Except.ok a <-> x = some a := by
  cases x <;> simp [okOr]

/-!
# Schedules
-/

section Codec

variable (K : Kotva)

def priceEntries (m : FiniteMap ResourceKind UInt64) : List (UInt64 × Cv K.Other) :=
  (m.inOrder all).map fun e => (e.1.wireTag, Cv.u64 e.2)

/-- The loop of `resource_price_map`, with the map so far. -/
def resourcePrices : List (UInt64 × Cv K.Other) -> FiniteMap ResourceKind UInt64 ->
    Except (BillingError K.CborError) (FiniteMap ResourceKind UInt64)
  | [], out => Except.ok out
  | (tag, v) :: entries, out => do
      let kind <- okOr (fromWireTag tag)
        (BillingError.malformed "unknown resource-kind wire tag")
      let units <- (K.asU64 v).mapError BillingError.badEncoding
      resourcePrices entries (out.insert kind units)

def resourcePriceMap (cv : Cv K.Other) :
    Except (BillingError K.CborError) (FiniteMap ResourceKind UInt64) :=
  match cv with
  | Cv.map entries => resourcePrices K entries ∅
  | _ => Except.error (BillingError.malformed "expected a resource-kind price map")

namespace TariffSchedule

/-- A `String` holds at most `isize::MAX` bytes. -/
def Allocated (s : TariffSchedule) : Prop :=
  s.currency.utf8ByteSize < 2 ^ 63

/-- `if let Some(p) = self.period_seconds` pushes this entry. -/
def periodEntries : Option UInt64 -> List (UInt64 × Cv K.Other)
  | none => []
  | some p => [(4, Cv.u64 p)]

def toCv (s : TariffSchedule) : Cv K.Other :=
  Cv.map
    ([(1, Cv.text s.currency), (2, Cv.map (priceEntries K s.prices)),
      (3, Cv.map (priceEntries K s.freeAllowance))] ++ periodEntries K s.periodSeconds)

def currencyText (cv : Cv K.Other) : Except (BillingError K.CborError) String :=
  match cv with
  | Cv.text s => Except.ok s
  | _ => Except.error (BillingError.malformed "currency must be a text string")

def fromCv (cv : Cv K.Other) : Except (BillingError K.CborError) TariffSchedule := do
  let f <- (K.fieldsFromCv cv).mapError BillingError.badEncoding
  let (cv, f) <- (K.req f 1).mapError BillingError.badEncoding
  let currency <- currencyText K cv
  let (cv, f) <- (K.req f 2).mapError BillingError.badEncoding
  let prices <- resourcePriceMap K cv
  let (cv, f) <- (K.req f 3).mapError BillingError.badEncoding
  let freeAllowance <- resourcePriceMap K cv
  let taken := K.take f 4
  let periodSeconds <- taken.1.mapM fun cv => (K.asU64 cv).mapError BillingError.badEncoding
  (K.denyUnknown taken.2).mapError BillingError.badEncoding
  return ⟨currency, prices, freeAllowance, periodSeconds⟩

def toCbor (s : TariffSchedule) : Bytes :=
  K.encode (s.toCv K)

def fromCbor (cbor : Bytes) : Except (BillingError K.CborError) TariffSchedule := do
  let cv <- (K.decode cbor).mapError BillingError.badEncoding
  fromCv K cv

end TariffSchedule

/-!
# Billed operations
-/

/-- `UsageReceipt` of the economics crate, with the bytes of its payload. -/
structure UsageReceipt where
  identity : Bytes
  operation : Bytes
  sig : Bytes
deriving DecidableEq

namespace BilledOperation

/-- A `Vec<u8>` and a `String` hold at most `isize::MAX` bytes. -/
structure Allocated (op : BilledOperation) : Prop where
  payer : op.payer.length < 2 ^ 63
  currency : op.currency.utf8ByteSize < 2 ^ 63

def toCv (op : BilledOperation) (h : op.Allocated) : Cv K.Other :=
  Cv.map [(1, Cv.bytes ⟨op.payer, h.payer⟩), (2, Cv.u64 op.kind.wireTag),
    (3, Cv.u64 op.meteredUnits), (4, Cv.u64 op.billedUnits), (5, Cv.u64 op.amount),
    (6, Cv.text op.currency), (7, Cv.u64 op.sequence)]

variable {descriptorError : Type}

def fromCv (cv : Cv K.Other) :
    Except (ReceiptError K.CborError descriptorError) BilledOperation := do
  let f <- (K.fieldsFromCv cv).mapError ReceiptError.badEncoding
  let (cv, f) <- (K.req f 1).mapError ReceiptError.badEncoding
  let payer <- (K.asBytes cv).mapError ReceiptError.badEncoding
  let (cv, f) <- (K.req f 2).mapError ReceiptError.badEncoding
  let tag <- (K.asU64 cv).mapError ReceiptError.badEncoding
  let kind <- okOr (fromWireTag tag)
    (ReceiptError.malformed "unknown resource-kind wire tag")
  let (cv, f) <- (K.req f 3).mapError ReceiptError.badEncoding
  let meteredUnits <- (K.asU64 cv).mapError ReceiptError.badEncoding
  let (cv, f) <- (K.req f 4).mapError ReceiptError.badEncoding
  let billedUnits <- (K.asU64 cv).mapError ReceiptError.badEncoding
  let (cv, f) <- (K.req f 5).mapError ReceiptError.badEncoding
  let amount <- (K.asU64 cv).mapError ReceiptError.badEncoding
  let (cv, f) <- (K.req f 6).mapError ReceiptError.badEncoding
  let currency <- (K.asText cv).mapError ReceiptError.badEncoding
  let (cv, f) <- (K.req f 7).mapError ReceiptError.badEncoding
  let sequence <- (K.asU64 cv).mapError ReceiptError.badEncoding
  (K.denyUnknown f).mapError ReceiptError.badEncoding
  return ⟨payer.toBytes, kind, meteredUnits, billedUnits, amount, currency, sequence⟩

def toCbor (op : BilledOperation) (h : op.Allocated) : Bytes :=
  K.encode (op.toCv K h)

def fromReceipt (receipt : UsageReceipt) :
    Except (ReceiptError K.CborError descriptorError) BilledOperation := do
  let cv <- (K.decode receipt.operation).mapError ReceiptError.badEncoding
  fromCv K cv

end BilledOperation

end Codec

/-!
# Price maps

The tags of the entries that are written ascend, and entries with ascending tags are the
ones that the map they make up is written as.
-/

section PriceMaps

variable {K : Kotva}

def tagged (K : Kotva) (e : ResourceKind × UInt64) : UInt64 × Cv K.Other :=
  (e.1.wireTag, Cv.u64 e.2)

theorem ascending_tagged {entries : List (ResourceKind × UInt64)} :
    Ascending (entries.map (tagged K)) <->
      (entries.map Prod.fst).Pairwise fun kind kind' => kind.wireTag < kind'.wireTag := by
  have hkeys : (entries.map (tagged K)).map Prod.fst =
      (entries.map Prod.fst).map wireTag := by
    rw [List.map_map, List.map_map]
    rfl
  rw [Ascending, hkeys, List.pairwise_map]

theorem priceEntries_insertAll {entries : List (ResourceKind × UInt64)}
    (h : Ascending (entries.map (tagged K))) :
    priceEntries K (FiniteMap.insertAll entries ∅) = entries.map (tagged K) := by
  rw [priceEntries, FiniteMap.inOrder_insertAll (fun a b => UInt64.lt_asymm)
    mem_all pairwise_wireTag (ascending_tagged.mp h)]
  rfl

theorem ascending_priceEntries (m : FiniteMap ResourceKind UInt64) : Ascending (priceEntries K m) :=
  ascending_tagged.mpr
    (pairwise_wireTag.sublist (FiniteMap.keys_inOrder_sublist all m))

theorem canonical_priceEntries (m : FiniteMap ResourceKind UInt64) :
    K.CanonicalCv (Cv.map (priceEntries K m)) := by
  refine Canonical.map _ ?_ (ascending_priceEntries m) ?_
  · have hsub := (FiniteMap.keys_inOrder_sublist all m).length_le
    rw [List.length_map] at hsub
    rw [priceEntries, List.length_map]
    exact Nat.lt_of_le_of_lt hsub (by decide)
  · intro entry hmem
    rcases List.mem_map.mp hmem with ⟨e, _, heq⟩
    rw [<- heq]
    exact Canonical.u64 e.2

variable (lawful : K.Lawful)

include lawful

theorem resourcePrices_eq_ok {m : List (UInt64 × Cv K.Other)}
    {out out' : FiniteMap ResourceKind UInt64} :
    resourcePrices K m out = Except.ok out' <->
      exists entries, m = entries.map (tagged K) ∧ out' = FiniteMap.insertAll entries out := by
  induction m generalizing out with
  | nil =>
      constructor
      · intro h
        cases h
        exact ⟨[], rfl, rfl⟩
      · intro h
        rcases h with ⟨entries, hm, hout⟩
        rw [List.map_eq_nil_iff.mp hm.symm] at hout
        rw [hout]
        rfl
  | cons entry m ih =>
      rcases entry with ⟨tag, cv⟩
      constructor
      · intro h
        rcases bind_eq_ok.mp h with ⟨kind, hkind, h⟩
        rcases Kotva.asU64_bind lawful h with ⟨units, hcv, h⟩
        rcases ih.mp h with ⟨entries, hm, hout⟩
        refine ⟨(kind, units) :: entries, ?_, hout⟩
        rw [hm, hcv, fromWireTag_eq_some.mp (okOr_eq_ok.mp hkind)]
        rfl
      · intro h
        rcases h with ⟨entries, hm, hout⟩
        rcases List.map_eq_cons_iff.mp hm.symm with ⟨e, rest, hentries, he, hrest⟩
        injection he with htag hcv
        refine bind_eq_ok.mpr ⟨e.1, okOr_eq_ok.mpr (fromWireTag_eq_some.mpr htag.symm), ?_⟩
        refine bind_eq_ok.mpr
          ⟨e.2, mapError_eq_ok.mpr ((lawful.asU64_ok cv e.2).mpr hcv.symm), ?_⟩
        apply ih.mpr
        refine ⟨rest, hrest.symm, ?_⟩
        rw [hout, hentries]
        rfl

theorem resourcePriceMap_priceEntries (m : FiniteMap ResourceKind UInt64) :
    resourcePriceMap K (Cv.map (priceEntries K m)) = Except.ok m := by
  apply (resourcePrices_eq_ok lawful).mpr
  refine ⟨m.inOrder all, rfl, ?_⟩
  exact (FiniteMap.insertAll_inOrder nodup_all mem_all m).symm

theorem priceEntries_of_resourcePriceMap {cv : Cv K.Other}
    {m : FiniteMap ResourceKind UInt64} (hcv : K.CanonicalCv cv)
    (h : resourcePriceMap K cv = Except.ok m) : cv = Cv.map (priceEntries K m) := by
  cases cv with
  | map pairs =>
      rcases (resourcePrices_eq_ok lawful).mp h with ⟨entries, hpairs, hm⟩
      have hkeys := hcv.ascending
      rw [hpairs] at hkeys
      rw [hm, priceEntries_insertAll hkeys, hpairs]
  | _ => cases h

end PriceMaps

/-!
# One encoding of a schedule
-/

section Schedules

variable {K : Kotva}

namespace TariffSchedule

variable (K) in
theorem canonical_toCv (h : s.Allocated) : K.CanonicalCv (s.toCv K) := by
  have hcurrency : K.CanonicalCv (Cv.text s.currency) := Canonical.text s.currency h
  have hprices := @canonical_priceEntries K s.prices
  have hfree := @canonical_priceEntries K s.freeAllowance
  unfold toCv
  cases s.periodSeconds with
  | none =>
      refine Canonical.map _ (by simp [periodEntries]) ?_ ?_
      · change List.Pairwise (· < ·) [(1 : UInt64), 2, 3]
        decide
      · simp only [periodEntries, List.append_nil, List.forall_mem_cons]
        exact ⟨hcurrency, hprices, hfree, List.forall_mem_nil _⟩
  | some p =>
      refine Canonical.map _ (by simp [periodEntries]) ?_ ?_
      · change List.Pairwise (· < ·) [(1 : UInt64), 2, 3, 4]
        decide
      · simp only [periodEntries, List.cons_append, List.nil_append, List.forall_mem_cons]
        exact ⟨hcurrency, hprices, hfree, Canonical.u64 p, List.forall_mem_nil _⟩

theorem currencyText_eq_ok {cv : Cv K.Other} {currency : String} :
    currencyText K cv = Except.ok currency <-> cv = Cv.text currency := by
  cases cv <;> simp [currencyText]

variable (lawful : K.Lawful)

include lawful

theorem take_period {f : K.Fields} {periodSeconds : Option UInt64}
    (h : K.Holds f (periodEntries K periodSeconds)) :
    ((K.take f 4).1.mapM fun cv => (K.asU64 cv).mapError BillingError.badEncoding) =
        Except.ok periodSeconds ∧
      K.Holds (K.take f 4).2 [] := by
  cases periodSeconds with
  | none =>
      rcases Kotva.holds_take_absent lawful 4 h rfl with ⟨hfound, hrest⟩
      rw [hfound]
      exact ⟨rfl, hrest⟩
  | some p =>
      rcases Kotva.holds_take lawful h with ⟨hfound, hrest⟩
      rw [hfound, Option.mapM_some, (lawful.asU64_ok _ p).mpr rfl]
      exact ⟨rfl, hrest⟩

theorem fromCv_toCv (h : s.Allocated) : fromCv K (s.toCv K) = Except.ok s := by
  have hkeys := (canonical_toCv K h).ascending
  refine Kotva.bind_fieldsFromCv lawful hkeys fun f hf => ?_
  refine Kotva.bind_req lawful hf fun f₁ hf₁ => ?_
  refine bind_eq_ok.mpr ⟨s.currency, rfl, ?_⟩
  refine Kotva.bind_req lawful hf₁ fun f₂ hf₂ => ?_
  refine bind_eq_ok.mpr ⟨s.prices, resourcePriceMap_priceEntries lawful s.prices, ?_⟩
  refine Kotva.bind_req lawful hf₂ fun f₃ hf₃ => ?_
  refine bind_eq_ok.mpr
    ⟨s.freeAllowance, resourcePriceMap_priceEntries lawful s.freeAllowance, ?_⟩
  rcases take_period lawful hf₃ with ⟨h₄, hf₄⟩
  refine bind_eq_ok.mpr ⟨s.periodSeconds, h₄, ?_⟩
  exact Kotva.bind_denyUnknown lawful hf₄ rfl

theorem toCv_of_fromCv {cv : Cv K.Other} (hcv : K.CanonicalCv cv)
    (h : fromCv K cv = Except.ok s) : cv = s.toCv K ∧ s.Allocated := by
  rcases Kotva.fields_bind lawful hcv h with ⟨f, hmap, hf, h⟩
  rcases Kotva.req_bind lawful hf h with ⟨cv₁, f₁, hcanon₁, hf₁, hpairs₁, h⟩
  rcases bind_eq_ok.mp h with ⟨currency, hcurrency, h⟩
  rcases Kotva.req_bind lawful hf₁ h with ⟨cv₂, f₂, hcanon₂, hf₂, hpairs₂, h⟩
  rcases bind_eq_ok.mp h with ⟨prices, hprices, h⟩
  rcases Kotva.req_bind lawful hf₂ h with ⟨cv₃, f₃, hcanon₃, hf₃, hpairs₃, h⟩
  rcases bind_eq_ok.mp h with ⟨freeAllowance, hfree, h⟩
  rcases bind_eq_ok.mp h with ⟨periodSeconds, hperiod, h⟩
  rcases Kotva.denyUnknown_bind lawful h with ⟨hnone, h⟩
  cases h
  have hcv₁ := currencyText_eq_ok.mp hcurrency
  have hallocated : currency.utf8ByteSize < 2 ^ 63 := by
    rw [hcv₁] at hcanon₁
    cases hcanon₁
    assumption
  refine ⟨?_, hallocated⟩
  rw [hmap, hpairs₁, hpairs₂, hpairs₃, hcv₁,
    priceEntries_of_resourcePriceMap lawful hcanon₂ hprices,
    priceEntries_of_resourcePriceMap lawful hcanon₃ hfree]
  rcases Kotva.take_mapM lawful hf₃ hperiod with
    ⟨hfound, hpairs₄⟩ | ⟨cv₄, p, hfound, _, hp, hpairs₄⟩
  · rw [hfound, hpairs₄, hnone]
    rfl
  · rw [hfound, hpairs₄, hnone, (lawful.asU64_ok cv₄ p).mp (mapError_eq_ok.mp hp)]
    rfl

theorem fromCbor_eq_ok {cbor : Bytes} :
    fromCbor K cbor = Except.ok s <-> s.Allocated ∧ s.toCbor K = cbor := by
  constructor
  · intro h
    rcases bind_eq_ok.mp h with ⟨cv, hdecode, hcv⟩
    have hdecode := mapError_eq_ok.mp hdecode
    rcases toCv_of_fromCv lawful (lawful.decode_canonical cbor cv hdecode) hcv with
      ⟨heq, hallocated⟩
    refine ⟨hallocated, ?_⟩
    rw [toCbor, <- heq]
    exact lawful.encode_decode cbor cv hdecode
  · intro h
    rcases h with ⟨hallocated, heq⟩
    have hdecode := lawful.decode_encode _ (canonical_toCv K hallocated)
    rw [<- heq]
    exact bind_eq_ok.mpr
      ⟨s.toCv K, mapError_eq_ok.mpr hdecode, fromCv_toCv lawful hallocated⟩

/-- The keys of a schedule, and the tags of the maps in it, are known ones. -/
def Known (m : List (UInt64 × Cv K.Other)) : Prop :=
  forall e, e ∈ m -> e.1 ∈ [(1 : UInt64), 2, 3, 4] ∧
    forall prices, e.2 = Cv.map prices ->
      forall price, price ∈ prices -> fromWireTag price.1 ≠ none

omit lawful in
theorem fromWireTag_of_mem_priceEntries {m : FiniteMap ResourceKind UInt64}
    {entry : UInt64 × Cv K.Other} (h : entry ∈ priceEntries K m) : fromWireTag entry.1 ≠ none := by
  rcases List.mem_map.mp h with ⟨e, _, heq⟩
  rw [<- heq, fromWireTag_eq_some.mpr (@rfl _ e.1.wireTag)]
  exact Option.some_ne_none e.1

omit lawful in
theorem known_toCv (s : TariffSchedule) : exists m, s.toCv K = Cv.map m ∧ Known m := by
  refine ⟨_, rfl, ?_⟩
  intro e he
  rcases List.mem_append.mp he with he | he
  · simp only [List.mem_cons, List.not_mem_nil, or_false] at he
    rcases he with he | he | he
    · rw [he]
      exact ⟨by simp, fun _ h => by cases h⟩
    all_goals
      rw [he]
      refine ⟨by simp, ?_⟩
      intro prices h price hprice
      injection h with h
      rw [<- h] at hprice
      exact fromWireTag_of_mem_priceEntries hprice
  · cases hp : s.periodSeconds with
    | none =>
        rw [hp] at he
        cases he
    | some p =>
        rw [hp] at he
        rw [List.mem_singleton.mp he]
        exact ⟨by simp, fun _ h => by cases h⟩

theorem known_of_fromCbor {cbor : Bytes} (h : fromCbor K cbor = Except.ok s) :
    exists m, K.decode cbor = Except.ok (Cv.map m) ∧ Known m := by
  rcases (fromCbor_eq_ok lawful).mp h with ⟨hallocated, heq⟩
  rcases @known_toCv K s with ⟨m, hm, hknown⟩
  refine ⟨m, ?_, hknown⟩
  rw [<- heq, <- hm]
  exact lawful.decode_encode _ (canonical_toCv K hallocated)

end TariffSchedule

end Schedules

/-!
# One encoding of an operation
-/

section Operations

variable {K : Kotva}

namespace BilledOperation

variable (K) in
theorem canonical_toCv (h : op.Allocated) : K.CanonicalCv (op.toCv K h) := by
  refine Canonical.map _ (by simp) ?_ ?_
  · change List.Pairwise (· < ·) [(1 : UInt64), 2, 3, 4, 5, 6, 7]
    decide
  · simp only [List.forall_mem_cons]
    exact ⟨Canonical.bytes _, Canonical.u64 _, Canonical.u64 _, Canonical.u64 _,
      Canonical.u64 _, Canonical.text _ h.currency, Canonical.u64 _, List.forall_mem_nil _⟩

variable (lawful : K.Lawful) {descriptorError : Type}

include lawful

theorem fromCv_toCv (h : op.Allocated) :
    (fromCv K (op.toCv K h) : Except (ReceiptError K.CborError descriptorError) _) =
      Except.ok op := by
  have hkeys := (canonical_toCv K h).ascending
  have htag := fromWireTag_eq_some.mpr (@rfl _ op.kind.wireTag)
  refine Kotva.bind_fieldsFromCv lawful hkeys fun f hf => ?_
  refine Kotva.bind_req lawful hf fun f₁ hf₁ => ?_
  refine Kotva.bind_asBytes lawful ?_
  refine Kotva.bind_req lawful hf₁ fun f₂ hf₂ => ?_
  refine Kotva.bind_asU64 lawful ?_
  refine bind_eq_ok.mpr ⟨op.kind, okOr_eq_ok.mpr htag, ?_⟩
  refine Kotva.bind_req lawful hf₂ fun f₃ hf₃ => ?_
  refine Kotva.bind_asU64 lawful ?_
  refine Kotva.bind_req lawful hf₃ fun f₄ hf₄ => ?_
  refine Kotva.bind_asU64 lawful ?_
  refine Kotva.bind_req lawful hf₄ fun f₅ hf₅ => ?_
  refine Kotva.bind_asU64 lawful ?_
  refine Kotva.bind_req lawful hf₅ fun f₆ hf₆ => ?_
  refine Kotva.bind_asText lawful ?_
  refine Kotva.bind_req lawful hf₆ fun f₇ hf₇ => ?_
  refine Kotva.bind_asU64 lawful ?_
  exact Kotva.bind_denyUnknown lawful hf₇ rfl

theorem toCv_of_fromCv {cv : Cv K.Other} (hcv : K.CanonicalCv cv)
    (h : (fromCv K cv : Except (ReceiptError K.CborError descriptorError) _) =
      Except.ok op) : exists hop : op.Allocated, cv = op.toCv K hop := by
  rcases Kotva.fields_bind lawful hcv h with ⟨f, hmap, hf, h⟩
  rcases Kotva.req_bind lawful hf h with ⟨cv₁, f₁, _, hf₁, hpairs₁, h⟩
  rcases Kotva.asBytes_bind lawful h with ⟨payer, hcv₁, h⟩
  rcases Kotva.req_bind lawful hf₁ h with ⟨cv₂, f₂, _, hf₂, hpairs₂, h⟩
  rcases Kotva.asU64_bind lawful h with ⟨tag, hcv₂, h⟩
  rcases bind_eq_ok.mp h with ⟨kind, hkind, h⟩
  rcases Kotva.req_bind lawful hf₂ h with ⟨cv₃, f₃, _, hf₃, hpairs₃, h⟩
  rcases Kotva.asU64_bind lawful h with ⟨meteredUnits, hcv₃, h⟩
  rcases Kotva.req_bind lawful hf₃ h with ⟨cv₄, f₄, _, hf₄, hpairs₄, h⟩
  rcases Kotva.asU64_bind lawful h with ⟨billedUnits, hcv₄, h⟩
  rcases Kotva.req_bind lawful hf₄ h with ⟨cv₅, f₅, _, hf₅, hpairs₅, h⟩
  rcases Kotva.asU64_bind lawful h with ⟨amount, hcv₅, h⟩
  rcases Kotva.req_bind lawful hf₅ h with ⟨cv₆, f₆, hcanon₆, hf₆, hpairs₆, h⟩
  rcases Kotva.asText_bind lawful h with ⟨currency, hcv₆, h⟩
  rcases Kotva.req_bind lawful hf₆ h with ⟨cv₇, f₇, _, _, hpairs₇, h⟩
  rcases Kotva.asU64_bind lawful h with ⟨sequence, hcv₇, h⟩
  rcases Kotva.denyUnknown_bind lawful h with ⟨hnone, h⟩
  cases h
  have hallocated : currency.utf8ByteSize < 2 ^ 63 := by
    rw [hcv₆] at hcanon₆
    cases hcanon₆
    assumption
  refine ⟨⟨payer.length_lt, hallocated⟩, ?_⟩
  rw [hmap, hpairs₁, hpairs₂, hpairs₃, hpairs₄, hpairs₅, hpairs₆, hpairs₇, hnone, hcv₁, hcv₂,
    hcv₃, hcv₄, hcv₅, hcv₆, hcv₇, fromWireTag_eq_some.mp (okOr_eq_ok.mp hkind)]
  rfl

theorem fromReceipt_eq_ok {receipt : UsageReceipt} :
    (fromReceipt K receipt : Except (ReceiptError K.CborError descriptorError) _) =
        Except.ok op <->
      exists h : op.Allocated, op.toCbor K h = receipt.operation := by
  constructor
  · intro h
    rcases bind_eq_ok.mp h with ⟨cv, hdecode, hcv⟩
    have hdecode := mapError_eq_ok.mp hdecode
    rcases toCv_of_fromCv lawful (lawful.decode_canonical _ cv hdecode) hcv with
      ⟨hallocated, heq⟩
    refine ⟨hallocated, ?_⟩
    rw [toCbor, <- heq]
    exact lawful.encode_decode _ cv hdecode
  · intro h
    rcases h with ⟨hallocated, heq⟩
    have hdecode := lawful.decode_encode _ (canonical_toCv K hallocated)
    rw [fromReceipt, <- heq]
    exact bind_eq_ok.mpr
      ⟨op.toCv K hallocated, mapError_eq_ok.mpr hdecode, fromCv_toCv lawful hallocated⟩

def Known (m : List (UInt64 × Cv K.Other)) : Prop :=
  forall e, e ∈ m -> e.1 ∈ [(1 : UInt64), 2, 3, 4, 5, 6, 7] ∧
    forall tag, e = (2, Cv.u64 tag) -> fromWireTag tag ≠ none

omit lawful in
theorem known_toCv {op : BilledOperation} (h : op.Allocated) :
    exists m, op.toCv K h = Cv.map m ∧ Known m := by
  refine ⟨_, rfl, ?_⟩
  intro e he
  constructor
  · exact (List.mem_map_of_mem he : Prod.fst e ∈ List.map Prod.fst _)
  · intro tag htag
    rw [htag] at he
    have hkind : tag = op.kind.wireTag := by
      simpa using he
    rw [fromWireTag_eq_some.mpr hkind]
    exact Option.some_ne_none op.kind

theorem known_of_fromReceipt {receipt : UsageReceipt}
    (h : (fromReceipt K receipt : Except (ReceiptError K.CborError descriptorError) _) =
      Except.ok op) :
    exists m, K.decode receipt.operation = Except.ok (Cv.map m) ∧ Known m := by
  rcases (fromReceipt_eq_ok lawful).mp h with ⟨hallocated, heq⟩
  rcases @known_toCv K op hallocated with ⟨m, hm, hknown⟩
  refine ⟨m, ?_, hknown⟩
  rw [<- heq, <- hm]
  exact lawful.decode_encode _ (canonical_toCv K hallocated)

end BilledOperation

end Operations

/-- Schedules and operations have one wire form each: what was written is read back, what
is read was written so, and only known keys and tags are read. -/
theorem billing_one_wire_form {K : Kotva} (lawful : K.Lawful) (descriptorError : Type) :
    (forall s : TariffSchedule, s.Allocated ->
      TariffSchedule.fromCbor K (s.toCbor K) = Except.ok s) ∧
    (forall (op : BilledOperation) (h : op.Allocated) (receipt : UsageReceipt),
      receipt.operation = op.toCbor K h ->
      (BilledOperation.fromReceipt K receipt :
        Except (ReceiptError K.CborError descriptorError) _) = Except.ok op) ∧
    (forall cbor s, TariffSchedule.fromCbor K cbor = Except.ok s ->
      s.toCbor K = cbor ∧
        exists m, K.decode cbor = Except.ok (Cv.map m) ∧ TariffSchedule.Known m) ∧
    forall receipt op,
      (BilledOperation.fromReceipt K receipt :
        Except (ReceiptError K.CborError descriptorError) _) = Except.ok op ->
      (exists h : op.Allocated, op.toCbor K h = receipt.operation) ∧
        exists m, K.decode receipt.operation = Except.ok (Cv.map m) ∧
          BilledOperation.Known m := by
  refine ⟨?_, ?_, ?_, ?_⟩
  · intro s h
    exact (TariffSchedule.fromCbor_eq_ok lawful).mpr ⟨h, rfl⟩
  · intro op h receipt hreceipt
    exact (BilledOperation.fromReceipt_eq_ok lawful).mpr ⟨h, hreceipt.symm⟩
  · intro cbor s h
    exact ⟨((TariffSchedule.fromCbor_eq_ok lawful).mp h).2,
      TariffSchedule.known_of_fromCbor lawful h⟩
  · intro receipt op h
    exact ⟨(BilledOperation.fromReceipt_eq_ok lawful).mp h,
      BilledOperation.known_of_fromReceipt lawful h⟩

def relayTariffSchedule : TariffSchedule where
  currency := "USDC"
  prices := FiniteMap.insertAll [(bytesForwarded, 1),
    (connections, 500)] ∅
  freeAllowance := FiniteMap.insertAll [(bytesForwarded, 1000)] ∅
  periodSeconds := some 2592000

def plainKotva : Kotva :=
  Kotva.ofCodec fun _ _ _ _ => Except.ok ()

theorem relayTariffSchedule_read_back :
    relayTariffSchedule.Allocated ∧
      TariffSchedule.fromCbor plainKotva (relayTariffSchedule.toCbor plainKotva) =
        Except.ok relayTariffSchedule := by
  have hallocated : relayTariffSchedule.Allocated := by
    unfold TariffSchedule.Allocated
    decide
  exact ⟨hallocated, (billing_one_wire_form (Kotva.lawful_ofCodec _) Unit).1
    relayTariffSchedule hallocated⟩

end Billing
end Ephor
