import Ephor.Economics.Kotva

/-!
# Coordinator descriptors

`pier-economics/src/descriptor.rs`: the descriptor that a coordinator publishes, with
its optional tariff, as canonical CBOR under a signature.  Encoder and decoder are
written field by field, and the signature travels as one more entry of the same map.
-/

namespace Ephor
namespace Economics

open Foundation
open Foundation.CanonicalCbor

variable {s : String} {β : Type} {r : β}

/-!
# Kinds and visibility
-/

inductive CoordinatorKind where
  | gateway
  | relay
  | mediaRelay
  | reachabilityAdapter
  | infraService
  | indexer
  | labeler
  | matcher
  | arbiter
  | oracle
  | custodialEscrow
deriving DecidableEq

def CoordinatorKind.asStr : CoordinatorKind -> String
  | gateway => "gateway"
  | relay => "relay"
  | mediaRelay => "media-relay"
  | reachabilityAdapter => "reachability-adapter"
  | infraService => "infra-service"
  | indexer => "indexer"
  | labeler => "labeler"
  | matcher => "matcher"
  | arbiter => "arbiter"
  | oracle => "oracle"
  | custodialEscrow => "custodial-escrow"

def CoordinatorKind.fromWireStr : String -> Option CoordinatorKind
  | "gateway" => some gateway
  | "relay" => some relay
  | "media-relay" => some mediaRelay
  | "reachability-adapter" => some reachabilityAdapter
  | "infra-service" => some infraService
  | "indexer" => some indexer
  | "labeler" => some labeler
  | "matcher" => some matcher
  | "arbiter" => some arbiter
  | "oracle" => some oracle
  | "custodial-escrow" => some custodialEscrow
  | _ => none

inductive VisibilityClass where
  | blind
  | blindRouting
  | terminating
deriving DecidableEq

inductive AssuranceLevel where
  | structural
  | attested
  | declared
deriving DecidableEq

structure ContentVisibility where
  visibilityClass : VisibilityClass
  level : AssuranceLevel
deriving DecidableEq

def classText : VisibilityClass -> String
  | VisibilityClass.blind => "blind"
  | VisibilityClass.blindRouting => "blind-routing"
  | VisibilityClass.terminating => "terminating"

def levelText : AssuranceLevel -> String
  | AssuranceLevel.structural => "structural"
  | AssuranceLevel.attested => "attested"
  | AssuranceLevel.declared => "declared"

def classOfText : String -> Option VisibilityClass
  | "blind" => some VisibilityClass.blind
  | "blind-routing" => some VisibilityClass.blindRouting
  | "terminating" => some VisibilityClass.terminating
  | _ => none

def levelOfText : String -> Option AssuranceLevel
  | "structural" => some AssuranceLevel.structural
  | "attested" => some AssuranceLevel.attested
  | "declared" => some AssuranceLevel.declared
  | _ => none

theorem fromWireStr_asStr (kind : CoordinatorKind) :
    CoordinatorKind.fromWireStr kind.asStr = some kind := by
  cases kind <;> rfl

theorem classOfText_classText (c : VisibilityClass) : classOfText (classText c) = some c := by
  cases c <;> rfl

theorem levelOfText_levelText (l : AssuranceLevel) : levelOfText (levelText l) = some l := by
  cases l <;> rfl

theorem asStr_of_fromWireStr {kind : CoordinatorKind}
    (h : CoordinatorKind.fromWireStr s = some kind) : s = kind.asStr := by
  unfold CoordinatorKind.fromWireStr at h
  split at h
  all_goals cases h
  all_goals rfl

theorem classText_of_classOfText {c : VisibilityClass} (h : classOfText s = some c) :
    s = classText c := by
  unfold classOfText at h
  split at h
  all_goals cases h
  all_goals rfl

theorem levelText_of_levelOfText {l : AssuranceLevel} (h : levelOfText s = some l) :
    s = levelText l := by
  unfold levelOfText at h
  split at h
  all_goals cases h
  all_goals rfl

/-!
# Errors
-/

inductive DescriptorError (K : Kotva) where
  | badSignature (e : K.IdentityError)
  | badEncoding (e : K.CborError)
  | malformed (detail : String)
  | unsupportedSuite (b : UInt8)

/-- The `?` on a result of the codec. -/
def ofCbor {K : Kotva} {α : Type} (x : Except K.CborError α) : Except (DescriptorError K) α :=
  x.mapError DescriptorError.badEncoding

/-- `ok_or(DescriptorError::Malformed(detail))`. -/
def orMalformed {K : Kotva} {α : Type} (x : Option α) (detail : String) :
    Except (DescriptorError K) α :=
  match x with
  | some a => Except.ok a
  | none => Except.error (DescriptorError.malformed detail)

theorem ofCbor_eq_ok {K : Kotva} {α : Type} {x : Except K.CborError α} {a : α} :
    ofCbor x = Except.ok a <-> x = Except.ok a := by
  cases x <;> simp [ofCbor, Except.mapError]

theorem orMalformed_eq_ok {K : Kotva} {α : Type} {x : Option α} {detail : String} {a : α} :
    (orMalformed x detail : Except (DescriptorError K) α) = Except.ok a <-> x = some a := by
  cases x <;> simp [orMalformed]

/-!
# The wire format
-/

def suite : UInt8 := 1

def descriptorDs : Bytes := utf8 "DMTAP-COORD-v0/descriptor\x00"

/-- The content of a `Cbor` payload is not looked into. -/
abbrev Cbor := ByteVec

structure Tariff where
  identity : ByteVec
  schedule : Cbor
  validUntil : Option UInt64
  sig : ByteVec
deriving DecidableEq

structure Descriptor where
  identity : ByteVec
  kind : CoordinatorKind
  visibility : ContentVisibility
  policy : Cbor
  tariff : Option Tariff
deriving DecidableEq

structure SignedDescriptor where
  descriptor : Descriptor
  sig : ByteVec
deriving DecidableEq

def requireSupportedSuite (K : Kotva) (cv : Cv K.Other) : Except (DescriptorError K) Unit := do
  let b <- ofCbor (K.asU8 cv)
  match K.suiteFromU8 b with
  | some Suite.classical => Except.ok ()
  | _ => Except.error (DescriptorError.unsupportedSuite b)

def visibilityToCv (K : Kotva) (v : ContentVisibility) : Cv K.Other :=
  Cv.map [(1, Cv.text (classText v.visibilityClass)), (2, Cv.text (levelText v.level))]

def visibilityFromCv (K : Kotva) (cv : Cv K.Other) :
    Except (DescriptorError K) ContentVisibility := do
  let f <- ofCbor (K.fieldsFromCv cv)
  let (cv, f) <- ofCbor (K.req f 1)
  let text <- ofCbor (K.asText cv)
  let visibilityClass <- orMalformed (classOfText text) "unknown visibility class"
  let (cv, f) <- ofCbor (K.req f 2)
  let text <- ofCbor (K.asText cv)
  let level <- orMalformed (levelOfText text) "unknown assurance level"
  ofCbor (K.denyUnknown f)
  return ⟨visibilityClass, level⟩

namespace Tariff

/-- An optional entry; `if let Some(v) = self.valid_until` pushes it. -/
def validUntilPairs (K : Kotva) : Option UInt64 -> List (UInt64 × Cv K.Other)
  | none => []
  | some v => [(4, Cv.u64 v)]

def toCv (K : Kotva) (t : Tariff) : Cv K.Other :=
  Cv.map
    ([(1, Cv.u64 suite.toUInt64), (2, Cv.bytes t.identity), (3, Cv.bytes t.schedule)] ++
      validUntilPairs K t.validUntil ++ [(5, Cv.bytes t.sig)])

def fromCv (K : Kotva) (cv : Cv K.Other) : Except (DescriptorError K) Tariff := do
  let f <- ofCbor (K.fieldsFromCv cv)
  let (cv, f) <- ofCbor (K.req f 1)
  requireSupportedSuite K cv
  let (cv, f) <- ofCbor (K.req f 2)
  let identity <- ofCbor (K.asBytes cv)
  let (cv, f) <- ofCbor (K.req f 3)
  let schedule <- ofCbor (K.asBytes cv)
  let taken := K.take f 4
  let validUntil <- taken.1.mapM fun cv => ofCbor (K.asU64 cv)
  let (cv, f) <- ofCbor (K.req taken.2 5)
  let sig <- ofCbor (K.asBytes cv)
  ofCbor (K.denyUnknown f)
  return ⟨identity, schedule, validUntil, sig⟩

end Tariff

namespace Descriptor

def tariffPairs (K : Kotva) : Option Tariff -> List (UInt64 × Cv K.Other)
  | none => []
  | some t => [(6, t.toCv K)]

def toPairs (K : Kotva) (d : Descriptor) : List (UInt64 × Cv K.Other) :=
  [(1, Cv.u64 suite.toUInt64), (2, Cv.text d.kind.asStr), (3, Cv.bytes d.identity),
    (4, visibilityToCv K d.visibility), (5, Cv.bytes d.policy)] ++ tariffPairs K d.tariff

def toCv (K : Kotva) (d : Descriptor) : Cv K.Other :=
  Cv.map (d.toPairs K)

def fromCv (K : Kotva) (cv : Cv K.Other) : Except (DescriptorError K) Descriptor := do
  let f <- ofCbor (K.fieldsFromCv cv)
  let (cv, f) <- ofCbor (K.req f 1)
  requireSupportedSuite K cv
  let (cv, f) <- ofCbor (K.req f 2)
  let text <- ofCbor (K.asText cv)
  let kind <- orMalformed (CoordinatorKind.fromWireStr text) "unknown coordinator kind"
  let (cv, f) <- ofCbor (K.req f 3)
  let identity <- ofCbor (K.asBytes cv)
  let (cv, f) <- ofCbor (K.req f 4)
  let visibility <- visibilityFromCv K cv
  let (cv, f) <- ofCbor (K.req f 5)
  let policy <- ofCbor (K.asBytes cv)
  let taken := K.take f 6
  let tariff <- taken.1.mapM (Tariff.fromCv K)
  ofCbor (K.denyUnknown taken.2)
  return ⟨identity, kind, visibility, policy, tariff⟩

def signingBody (K : Kotva) (d : Descriptor) : Bytes :=
  K.encode (d.toCv K)

def sign (K : Kotva) (signDomain : Bytes -> Bytes -> ByteVec) (d : Descriptor) :
    SignedDescriptor where
  descriptor := d
  sig := signDomain descriptorDs (d.signingBody K)

end Descriptor

namespace SignedDescriptor

def verify (K : Kotva) (d : SignedDescriptor) : Except (DescriptorError K) Unit :=
  (K.verifyDomain d.descriptor.identity descriptorDs (d.descriptor.signingBody K)
    d.sig).mapError DescriptorError.badSignature

/-- The wire bytes: the entries of the descriptor, and the signature under key 7.  The
source takes the entries out of `Descriptor::to_cv`, which is always a map. -/
def detCbor (K : Kotva) (d : SignedDescriptor) : Bytes :=
  K.encode (Cv.map (d.descriptor.toPairs K ++ [(7, Cv.bytes d.sig)]))

def fromDetCbor (K : Kotva) (bytes : Bytes) :
    Except (DescriptorError K) SignedDescriptor := do
  let cv <- ofCbor (K.decode bytes)
  let f <- ofCbor (K.fieldsFromCv cv)
  let (cv, f) <- ofCbor (K.req f 7)
  let sig <- ofCbor (K.asBytes cv)
  let descriptor <- Descriptor.fromCv K (Cv.map (K.intoPairs f))
  let signed : SignedDescriptor := ⟨descriptor, sig⟩
  signed.verify K
  return signed

end SignedDescriptor

/-!
# What is read is what was written

The decoders take the entries of a map one by one.  Once all are taken and none is left,
the entries taken make up the map, in the order the encoder writes them in.
-/

theorem insertEntry_sig {K : Kotva} (d : Descriptor) (sig : ByteVec) :
    insertEntry 7 (Cv.bytes sig) (d.toPairs K) = d.toPairs K ++ [(7, Cv.bytes sig)] := by
  rcases d with ⟨identity, kind, visibility, policy, _ | t⟩ <;> rfl

section Sound

variable {K : Kotva} (lawful : K.Lawful)

include lawful

variable {cv : Cv K.Other}

theorem requireSupportedSuite_eq_ok :
    requireSupportedSuite K cv = Except.ok () <-> cv = Cv.u64 suite.toUInt64 := by
  constructor
  · intro h
    rcases bind_eq_ok.mp h with ⟨b, hb, hsuite⟩
    have hcv := (lawful.asU8_ok cv b).mp (ofCbor_eq_ok.mp hb)
    split at hsuite
    · rename_i hclassical
      rw [(lawful.suiteFromU8_classical b).mp hclassical] at hcv
      exact hcv
    · cases hsuite
  · intro hcv
    have hb := (lawful.asU8_ok cv suite).mpr hcv
    have hclassical := (lawful.suiteFromU8_classical suite).mpr rfl
    rw [requireSupportedSuite, hb]
    show (match K.suiteFromU8 suite with
      | some Suite.classical => Except.ok ()
      | _ => Except.error (DescriptorError.unsupportedSuite suite)) = _
    rw [hclassical]

theorem fields_bind {next : K.Fields -> Except (DescriptorError K) β} (hcv : K.CanonicalCv cv)
    (h : (ofCbor (K.fieldsFromCv cv) >>= next) = Except.ok r) :
    exists f, cv = Cv.map (K.intoPairs f) ∧ K.CanonicalCv (Cv.map (K.intoPairs f)) ∧
      next f = Except.ok r :=
  Kotva.fields_bind lawful hcv h

theorem req_bind {f : K.Fields} {key : UInt64}
    {next : Cv K.Other × K.Fields -> Except (DescriptorError K) β}
    (hf : K.CanonicalCv (Cv.map (K.intoPairs f)))
    (h : (ofCbor (K.req f key) >>= next) = Except.ok r) :
    exists cv rest, K.CanonicalCv cv ∧ K.CanonicalCv (Cv.map (K.intoPairs rest)) ∧
      K.intoPairs f = insertEntry key cv (K.intoPairs rest) ∧
      next (cv, rest) = Except.ok r :=
  Kotva.req_bind lawful hf h

theorem asText_bind {next : String -> Except (DescriptorError K) β}
    (h : (ofCbor (K.asText cv) >>= next) = Except.ok r) :
    exists s, cv = Cv.text s ∧ next s = Except.ok r :=
  Kotva.asText_bind lawful h

theorem asBytes_bind {next : ByteVec -> Except (DescriptorError K) β}
    (h : (ofCbor (K.asBytes cv) >>= next) = Except.ok r) :
    exists b, cv = Cv.bytes b ∧ next b = Except.ok r :=
  Kotva.asBytes_bind lawful h

theorem suite_bind {next : Unit -> Except (DescriptorError K) β}
    (h : (requireSupportedSuite K cv >>= next) = Except.ok r) :
    cv = Cv.u64 suite.toUInt64 ∧ next () = Except.ok r := by
  rcases bind_eq_ok.mp h with ⟨_, hsuite, hnext⟩
  exact ⟨(requireSupportedSuite_eq_ok lawful).mp hsuite, hnext⟩

theorem denyUnknown_bind {f : K.Fields} {next : Unit -> Except (DescriptorError K) β}
    (h : (ofCbor (K.denyUnknown f) >>= next) = Except.ok r) :
    K.intoPairs f = [] ∧ next () = Except.ok r :=
  Kotva.denyUnknown_bind lawful h

theorem visibilityToCv_of_fromCv {v : ContentVisibility} (hcv : K.CanonicalCv cv)
    (h : visibilityFromCv K cv = Except.ok v) : cv = visibilityToCv K v := by
  rcases fields_bind lawful hcv h with ⟨f, hmap, hf, h⟩
  rcases req_bind lawful hf h with ⟨cv₁, f₁, _, hf₁, hpairs₁, h⟩
  rcases asText_bind lawful h with ⟨text₁, hcv₁, h⟩
  rcases bind_eq_ok.mp h with ⟨c, hc, h⟩
  rcases req_bind lawful hf₁ h with ⟨cv₂, f₂, _, _, hpairs₂, h⟩
  rcases asText_bind lawful h with ⟨text₂, hcv₂, h⟩
  rcases bind_eq_ok.mp h with ⟨l, hl, h⟩
  rcases denyUnknown_bind lawful h with ⟨hnone, h⟩
  cases h
  rw [hmap, hpairs₁, hpairs₂, hnone, hcv₁, hcv₂,
    classText_of_classOfText (orMalformed_eq_ok.mp hc),
    levelText_of_levelOfText (orMalformed_eq_ok.mp hl)]
  rfl

theorem Tariff.toCv_of_fromCv {t : Tariff} (hcv : K.CanonicalCv cv)
    (h : Tariff.fromCv K cv = Except.ok t) : cv = t.toCv K := by
  rcases fields_bind lawful hcv h with ⟨f, hmap, hf, h⟩
  rcases req_bind lawful hf h with ⟨cv₁, f₁, _, hf₁, hpairs₁, h⟩
  rcases suite_bind lawful h with ⟨hcv₁, h⟩
  rcases req_bind lawful hf₁ h with ⟨cv₂, f₂, _, hf₂, hpairs₂, h⟩
  rcases asBytes_bind lawful h with ⟨identity, hcv₂, h⟩
  rcases req_bind lawful hf₂ h with ⟨cv₃, f₃, _, hf₃, hpairs₃, h⟩
  rcases asBytes_bind lawful h with ⟨schedule, hcv₃, h⟩
  rcases bind_eq_ok.mp h with ⟨validUntil, hvalid, h⟩
  rcases req_bind lawful (Kotva.take_canonical lawful 4 hf₃) h with
    ⟨cv₅, f₅, _, _, hpairs₅, h⟩
  rcases asBytes_bind lawful h with ⟨sig, hcv₅, h⟩
  rcases denyUnknown_bind lawful h with ⟨hnone, h⟩
  cases h
  rw [hmap, hpairs₁, hpairs₂, hpairs₃, hcv₁, hcv₂, hcv₃]
  rcases Kotva.take_mapM lawful hf₃ hvalid with
    ⟨hfound, hpairs₄⟩ | ⟨cv₄, v, hfound, _, hv, hpairs₄⟩
  · rw [hfound, hpairs₄, hpairs₅, hcv₅, hnone]
    rfl
  · rw [hfound, hpairs₄, hpairs₅, hcv₅, hnone,
      (lawful.asU64_ok cv₄ v).mp (ofCbor_eq_ok.mp hv)]
    rfl

theorem Descriptor.toCv_of_fromCv {d : Descriptor} (hcv : K.CanonicalCv cv)
    (h : Descriptor.fromCv K cv = Except.ok d) : cv = d.toCv K := by
  rcases fields_bind lawful hcv h with ⟨f, hmap, hf, h⟩
  rcases req_bind lawful hf h with ⟨cv₁, f₁, _, hf₁, hpairs₁, h⟩
  rcases suite_bind lawful h with ⟨hcv₁, h⟩
  rcases req_bind lawful hf₁ h with ⟨cv₂, f₂, _, hf₂, hpairs₂, h⟩
  rcases asText_bind lawful h with ⟨text, hcv₂, h⟩
  rcases bind_eq_ok.mp h with ⟨kind, hkind, h⟩
  rcases req_bind lawful hf₂ h with ⟨cv₃, f₃, _, hf₃, hpairs₃, h⟩
  rcases asBytes_bind lawful h with ⟨identity, hcv₃, h⟩
  rcases req_bind lawful hf₃ h with ⟨cv₄, f₄, hcanon₄, hf₄, hpairs₄, h⟩
  rcases bind_eq_ok.mp h with ⟨visibility, hvisibility, h⟩
  rcases req_bind lawful hf₄ h with ⟨cv₅, f₅, _, hf₅, hpairs₅, h⟩
  rcases asBytes_bind lawful h with ⟨policy, hcv₅, h⟩
  rcases bind_eq_ok.mp h with ⟨tariff, htariff, h⟩
  rcases denyUnknown_bind lawful h with ⟨hnone, h⟩
  cases h
  rw [hmap, hpairs₁, hpairs₂, hpairs₃, hpairs₄, hpairs₅, hcv₁, hcv₂, hcv₃, hcv₅,
    asStr_of_fromWireStr (orMalformed_eq_ok.mp hkind),
    visibilityToCv_of_fromCv lawful hcanon₄ hvisibility]
  rcases Kotva.take_mapM lawful hf₅ htariff with
    ⟨hfound, hpairs₆⟩ | ⟨cv₆, t, hfound, hcanon₆, ht, hpairs₆⟩
  · rw [hfound, hpairs₆, hnone]
    rfl
  · rw [hfound, hpairs₆, hnone, Tariff.toCv_of_fromCv lawful hcanon₆ ht]
    rfl

theorem SignedDescriptor.detCbor_of_fromDetCbor {b : Bytes} {d : SignedDescriptor}
    (h : SignedDescriptor.fromDetCbor K b = Except.ok d) : d.detCbor K = b := by
  rcases bind_eq_ok.mp h with ⟨cv, hdecode, h⟩
  have hdecode := ofCbor_eq_ok.mp hdecode
  rcases fields_bind lawful (lawful.decode_canonical b cv hdecode) h with ⟨f, hmap, hf, h⟩
  rcases req_bind lawful hf h with ⟨cv₇, f₇, _, hf₇, hpairs, h⟩
  rcases asBytes_bind lawful h with ⟨sig, hcv₇, h⟩
  rcases bind_eq_ok.mp h with ⟨descriptor, hdescriptor, h⟩
  rcases bind_eq_ok.mp h with ⟨_, _, h⟩
  cases h
  have hbody := Descriptor.toCv_of_fromCv lawful hf₇ hdescriptor
  injection hbody with hbody
  rw [SignedDescriptor.detCbor, <- insertEntry_sig, <- hbody, <- hcv₇, <- hpairs, <- hmap]
  exact lawful.encode_decode b cv hdecode

end Sound

/-!
# What is written is read

The encoders write canonical values, and the decoders find the entries in the order in
which they look for them.
-/

theorem canonical_text (K : Kotva) (h : s.utf8ByteSize < 2 ^ 63) : K.CanonicalCv (Cv.text s) :=
  Canonical.text s h

theorem canonical_visibility (K : Kotva) (v : ContentVisibility) :
    K.CanonicalCv (visibilityToCv K v) := by
  refine Canonical.map _ (by simp) ?_ ?_
  · show List.Pairwise (· < ·) [(1 : UInt64), 2]
    decide
  · simp only [List.forall_mem_cons]
    refine ⟨canonical_text K ?_, canonical_text K ?_, (fun _ hmem => nomatch hmem)⟩
    · cases v.visibilityClass <;> decide
    · cases v.level <;> decide

theorem Tariff.canonical_toCv (K : Kotva) (t : Tariff) : K.CanonicalCv (t.toCv K) := by
  rcases t with ⟨identity, schedule, _ | v, sig⟩
  · refine Canonical.map _ (by simp [validUntilPairs]) ?_ ?_
    · show List.Pairwise (· < ·) [(1 : UInt64), 2, 3, 5]
      decide
    · simp only [validUntilPairs, List.append_nil, List.cons_append, List.nil_append,
        List.forall_mem_cons]
      exact ⟨Canonical.u64 _, Canonical.bytes _, Canonical.bytes _, Canonical.bytes _,
        (fun _ hmem => nomatch hmem)⟩
  · refine Canonical.map _ (by simp [validUntilPairs]) ?_ ?_
    · show List.Pairwise (· < ·) [(1 : UInt64), 2, 3, 4, 5]
      decide
    · simp only [validUntilPairs, List.cons_append, List.nil_append, List.forall_mem_cons]
      exact ⟨Canonical.u64 _, Canonical.bytes _, Canonical.bytes _, Canonical.u64 _,
        Canonical.bytes _, (fun _ hmem => nomatch hmem)⟩

theorem Descriptor.canonical_tariffPairs (K : Kotva) (tariff : Option Tariff) :
    forall entry, entry ∈ tariffPairs K tariff -> K.CanonicalCv entry.2 := by
  intro entry hmem
  cases tariff with
  | none => cases hmem
  | some t =>
      rw [List.mem_singleton.mp hmem]
      exact t.canonical_toCv K

theorem SignedDescriptor.ascending_pairs (K : Kotva) (d : SignedDescriptor) :
    Ascending (d.descriptor.toPairs K ++ [(7, Cv.bytes d.sig)]) := by
  rcases d with ⟨⟨identity, kind, visibility, policy, _ | t⟩, sig⟩
  · show List.Pairwise (· < ·) [(1 : UInt64), 2, 3, 4, 5, 7]
    decide
  · show List.Pairwise (· < ·) [(1 : UInt64), 2, 3, 4, 5, 6, 7]
    decide

theorem SignedDescriptor.canonical_pairs (K : Kotva) (d : SignedDescriptor) :
    K.CanonicalCv (Cv.map (d.descriptor.toPairs K ++ [(7, Cv.bytes d.sig)])) := by
  refine Canonical.map _ ?_ (d.ascending_pairs K) ?_
  · rcases d with ⟨⟨identity, kind, visibility, policy, _ | t⟩, sig⟩
    · simp [Descriptor.toPairs, Descriptor.tariffPairs]
    · simp [Descriptor.toPairs, Descriptor.tariffPairs]
  · simp only [Descriptor.toPairs, List.forall_mem_append, List.forall_mem_cons]
    refine ⟨⟨⟨Canonical.u64 _, canonical_text K ?_, Canonical.bytes _,
      canonical_visibility K _, Canonical.bytes _, (fun _ hmem => nomatch hmem)⟩,
      Descriptor.canonical_tariffPairs K _⟩, Canonical.bytes _,
      (fun _ hmem => nomatch hmem)⟩
    cases d.descriptor.kind <;> decide

section Complete

variable {K : Kotva} (lawful : K.Lawful)

include lawful

theorem visibilityFromCv_toCv (v : ContentVisibility) :
    visibilityFromCv K (visibilityToCv K v) = Except.ok v := by
  have hkeys := (canonical_visibility K v).ascending
  refine Kotva.bind_fieldsFromCv lawful hkeys fun f hf => ?_
  refine Kotva.bind_req lawful hf fun f₁ hf₁ => ?_
  refine Kotva.bind_asText lawful ?_
  refine bind_eq_ok.mpr ⟨_, orMalformed_eq_ok.mpr (classOfText_classText _), ?_⟩
  refine Kotva.bind_req lawful hf₁ fun f₂ hf₂ => ?_
  refine Kotva.bind_asText lawful ?_
  refine bind_eq_ok.mpr ⟨_, orMalformed_eq_ok.mpr (levelOfText_levelText _), ?_⟩
  exact Kotva.bind_denyUnknown lawful hf₂ rfl

theorem Tariff.take_validUntil {f : K.Fields} {validUntil : Option UInt64} {sig : ByteVec}
    (h : K.Holds f (validUntilPairs K validUntil ++ [(5, Cv.bytes sig)])) :
    ((K.take f 4).1.mapM fun cv => ofCbor (K.asU64 cv)) =
        (Except.ok validUntil : Except (DescriptorError K) (Option UInt64)) ∧
      K.Holds (K.take f 4).2 [(5, Cv.bytes sig)] := by
  cases validUntil with
  | none =>
      rcases Kotva.holds_take_absent lawful 4 h rfl with ⟨hfound, hrest⟩
      rw [hfound]
      exact ⟨rfl, hrest⟩
  | some v =>
      rcases Kotva.holds_take lawful h with ⟨hfound, hrest⟩
      rw [hfound, Option.mapM_some, (lawful.asU64_ok _ v).mpr rfl]
      exact ⟨rfl, hrest⟩

theorem Tariff.fromCv_toCv (t : Tariff) : Tariff.fromCv K (t.toCv K) = Except.ok t := by
  have hkeys := (t.canonical_toCv K).ascending
  refine Kotva.bind_fieldsFromCv lawful hkeys fun f hf => ?_
  refine Kotva.bind_req lawful hf fun f₁ hf₁ => ?_
  refine bind_eq_ok.mpr ⟨(), (requireSupportedSuite_eq_ok lawful).mpr rfl, ?_⟩
  refine Kotva.bind_req lawful hf₁ fun f₂ hf₂ => ?_
  refine Kotva.bind_asBytes lawful ?_
  refine Kotva.bind_req lawful hf₂ fun f₃ hf₃ => ?_
  refine Kotva.bind_asBytes lawful ?_
  rcases Tariff.take_validUntil lawful hf₃ with ⟨h₄, hf₄⟩
  refine bind_eq_ok.mpr ⟨_, h₄, ?_⟩
  refine Kotva.bind_req lawful hf₄ fun f₅ hf₅ => ?_
  refine Kotva.bind_asBytes lawful ?_
  exact Kotva.bind_denyUnknown lawful hf₅ rfl

theorem Descriptor.take_tariff {f : K.Fields} {tariff : Option Tariff}
    (h : K.Holds f (tariffPairs K tariff)) :
    (K.take f 6).1.mapM (Tariff.fromCv K) = Except.ok tariff ∧ K.Holds (K.take f 6).2 [] := by
  cases tariff with
  | none =>
      rcases Kotva.holds_take_absent lawful 6 h rfl with ⟨hfound, hrest⟩
      rw [hfound]
      exact ⟨rfl, hrest⟩
  | some t =>
      rcases Kotva.holds_take lawful h with ⟨hfound, hrest⟩
      rw [hfound, Option.mapM_some, Tariff.fromCv_toCv lawful t]
      exact ⟨rfl, hrest⟩

theorem Descriptor.fromCv_toCv {d : Descriptor} (hkeys : Ascending (d.toPairs K)) :
    Descriptor.fromCv K (d.toCv K) = Except.ok d := by
  refine Kotva.bind_fieldsFromCv lawful hkeys fun f hf => ?_
  refine Kotva.bind_req lawful hf fun f₁ hf₁ => ?_
  refine bind_eq_ok.mpr ⟨(), (requireSupportedSuite_eq_ok lawful).mpr rfl, ?_⟩
  refine Kotva.bind_req lawful hf₁ fun f₂ hf₂ => ?_
  refine Kotva.bind_asText lawful ?_
  refine bind_eq_ok.mpr ⟨_, orMalformed_eq_ok.mpr (fromWireStr_asStr _), ?_⟩
  refine Kotva.bind_req lawful hf₂ fun f₃ hf₃ => ?_
  refine Kotva.bind_asBytes lawful ?_
  refine Kotva.bind_req lawful hf₃ fun f₄ hf₄ => ?_
  refine bind_eq_ok.mpr ⟨_, visibilityFromCv_toCv lawful _, ?_⟩
  refine Kotva.bind_req lawful hf₄ fun f₅ hf₅ => ?_
  refine Kotva.bind_asBytes lawful ?_
  rcases Descriptor.take_tariff lawful hf₅ with ⟨h₆, hf₆⟩
  refine bind_eq_ok.mpr ⟨_, h₆, ?_⟩
  exact Kotva.bind_denyUnknown lawful hf₆ rfl

theorem SignedDescriptor.fromDetCbor_detCbor {d : SignedDescriptor}
    (hverify : d.verify K = Except.ok ()) :
    SignedDescriptor.fromDetCbor K (d.detCbor K) = Except.ok d := by
  have hdecode := lawful.decode_encode _ (d.canonical_pairs K)
  refine bind_eq_ok.mpr ⟨_, ofCbor_eq_ok.mpr hdecode, ?_⟩
  refine Kotva.bind_fieldsFromCv lawful (d.ascending_pairs K) fun f hf => ?_
  rcases Kotva.holds_req_last lawful hf with ⟨f₇, h₇, hf₇⟩
  refine bind_eq_ok.mpr ⟨(_, f₇), ofCbor_eq_ok.mpr h₇, ?_⟩
  refine Kotva.bind_asBytes lawful ?_
  refine bind_eq_ok.mpr ⟨d.descriptor, ?_, bind_eq_ok.mpr ⟨(), hverify, rfl⟩⟩
  rw [hf₇.pairs]
  exact Descriptor.fromCv_toCv lawful hf₇.ascending

end Complete

/-- A signed descriptor has one wire form: bytes that are accepted are the encoding of
what was read from them, and a descriptor whose signature verifies is read back from its
encoding. -/
theorem signedDescriptor_not_malleable {K : Kotva} (lawful : K.Lawful) :
    (forall b d, SignedDescriptor.fromDetCbor K b = Except.ok d -> d.detCbor K = b) ∧
      forall d : SignedDescriptor, d.verify K = Except.ok () ->
        SignedDescriptor.fromDetCbor K (d.detCbor K) = Except.ok d := by
  constructor
  · intro b d h
    exact SignedDescriptor.detCbor_of_fromDetCbor lawful h
  · intro d hverify
    exact SignedDescriptor.fromDetCbor_detCbor lawful hverify

/-!
# A published relay
-/

def relayIdentity : ByteVec where
  toBytes := [0x8a, 0x88, 0xe3, 0xdd, 0x74, 0x09, 0xf1, 0x95, 0xfd, 0x52, 0xdb, 0x2d, 0x3c, 0xba,
    0x5d, 0x72, 0xca, 0x67, 0x09, 0xbf, 0x1d, 0x94, 0x12, 0x1b, 0xf3, 0x74, 0x88, 0x01,
    0xb4, 0x0f, 0x6f, 0x5c]
  length_lt := by simp

def relayTariff : Tariff where
  identity := relayIdentity
  schedule := ⟨[0xa1, 0x01, 0x05], by simp⟩
  validUntil := some 1893456000000
  sig := ⟨[0xb7, 0xe7, 0x14, 0x1c, 0xd9, 0x57, 0x01, 0x99, 0x32, 0x89, 0x38, 0xb8, 0x0c, 0x2a,
    0x12, 0x53, 0x96, 0x88, 0x94, 0xaf, 0xf9, 0x9e, 0xde, 0x1c, 0x63, 0x6a, 0x4a, 0xe0,
    0x90, 0xc6, 0xea, 0xfe, 0x69, 0xc8, 0x16, 0x38, 0xe2, 0x8d, 0x4c, 0xa9, 0x56, 0xdd,
    0xa2, 0x83, 0xa9, 0xaf, 0xa3, 0x9b, 0x12, 0x96, 0xe8, 0xce, 0x7b, 0x44, 0xb4, 0xf9,
    0x9e, 0x18, 0xd8, 0x0a, 0xbc, 0xc7, 0x08, 0x04], by simp⟩

/-- A relay that charges, signed with the key of `relayIdentity`. -/
def signedRelay : SignedDescriptor where
  descriptor :=
    { identity := relayIdentity
      kind := CoordinatorKind.relay
      visibility := ⟨VisibilityClass.blind, AssuranceLevel.structural⟩
      policy := ByteVec.empty
      tariff := some relayTariff }
  sig := ⟨[0xa0, 0x4f, 0xbc, 0xc5, 0xd9, 0x44, 0xf4, 0x3a, 0x39, 0xe8, 0xbd, 0x74, 0x98, 0x34,
    0x9f, 0xaf, 0x83, 0xa4, 0x1c, 0x8b, 0x36, 0x32, 0xb5, 0xe6, 0x40, 0x70, 0xd3, 0x31,
    0x33, 0x55, 0x07, 0x43, 0x56, 0x69, 0x1e, 0x69, 0xec, 0x67, 0xea, 0x10, 0xa7, 0x13,
    0x4d, 0x73, 0xaa, 0x7f, 0x07, 0xa8, 0x20, 0x36, 0x3b, 0x76, 0xd0, 0xf0, 0x2a, 0x72,
    0xf3, 0xcc, 0x78, 0xac, 0x35, 0x13, 0x77, 0x0f], by simp⟩

def relayBody : Bytes :=
  (@FixedBytes.ofNat 189 (0xa60101026572656c61790358208a88e3dd7409f195fd52db2d3cba5d72 <<< 1280 +
    0xca6709bf1d94121bf3748801b40f6f5c04a20165626c696e64026a7374727563 <<< 1024 +
    0x747572616c054006a501010258208a88e3dd7409f195fd52db2d3cba5d72ca67 <<< 768 +
    0x09bf1d94121bf3748801b40f6f5c0343a10105041b000001b8dac5b400055840 <<< 512 +
    0xb7e7141cd9570199328938b80c2a1253968894aff99ede1c636a4ae090c6eafe <<< 256 +
    0x69c81638e28d4ca956dda283a9afa39b1296e8ce7b44b4f99e18d80abcc70804)).toBytes

def relayCheck (identity : ByteVec) (domain message : Bytes) (sig : ByteVec) :
    Except Unit Unit :=
  if identity = relayIdentity ∧ domain = descriptorDs ∧ message = relayBody ∧
      sig = signedRelay.sig then
    Except.ok ()
  else
    Except.error ()

def relayKotva : Kotva :=
  Kotva.ofCodec relayCheck

theorem signingBody_signedRelay : signedRelay.descriptor.signingBody relayKotva = relayBody := by
  decide +kernel

theorem relayCheck_signedRelay :
    relayCheck relayIdentity descriptorDs relayBody signedRelay.sig = Except.ok () := by
  rw [relayCheck, if_pos]
  exact ⟨rfl, rfl, rfl, rfl⟩

theorem signedRelay_read_back :
    signedRelay.verify relayKotva = Except.ok () ∧
      SignedDescriptor.fromDetCbor relayKotva (signedRelay.detCbor relayKotva) =
        Except.ok signedRelay := by
  have hidentity : signedRelay.descriptor.identity = relayIdentity := rfl
  have hcheck : relayKotva.verifyDomain = relayCheck := rfl
  have hverify : signedRelay.verify relayKotva = Except.ok () := by
    rw [SignedDescriptor.verify, signingBody_signedRelay, hidentity, hcheck,
      relayCheck_signedRelay]
    rfl
  exact ⟨hverify,
    (signedDescriptor_not_malleable (Kotva.lawful_ofCodec _)).2 signedRelay hverify⟩

end Economics
end Ephor
