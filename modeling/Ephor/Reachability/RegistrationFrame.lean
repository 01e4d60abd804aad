import Ephor.Reachability.Auth

/-!
# The registration frame

The writer cuts the lengths and the count to sixteen bits; the reader has limits of its own,
which are checked on what was cut.
-/

namespace Ephor
namespace Reachability
namespace Auth

open Foundation
open Foundation.Text

structure IterationOrder (services : Finset Str) where
  toList : List Str
  nodup : toList.Nodup
  toFinset_eq : toList.toFinset = services

theorem IterationOrder.length_eq {services : Finset Str} (order : IterationOrder services) :
    order.toList.length = services.card := by
  have hcard := congrArg Finset.card order.toFinset_eq
  rw [List.toFinset_card_of_nodup order.nodup] at hcard
  exact hcard

/-- Reading what was written returns it and leaves what follows, or fails. -/
def RoundTrips (registration : Registration)
    (order : IterationOrder registration.allowedServices) (more : Bytes) : Prop :=
  readRegistration (writeRegistration registration order.toList ++ more) =
      Except.ok (registration, more) ∨
    exists e, readRegistration (writeRegistration registration order.toList ++ more) =
      Except.error e

/-- No length and no count is cut. -/
structure Fits (registration : Registration) : Prop where
  name : (utf8 registration.name).length < 2 ^ 16
  count : registration.allowedServices.card < 2 ^ 16
  services : forall service, service ∈ registration.allowedServices ->
    (utf8 service).length < 2 ^ 16

/-- The bytes start with a frame within the limits of the reader. -/
def IsFrame (name : Str) (services : List Str) (stream rest : Bytes) : Prop :=
  name ≠ [] ∧ (utf8 name).length <= maxRegistrationFieldBytes ∧
    services.length <= maxRegistrationServices ∧
    (forall service, service ∈ services ->
      (utf8 service).length <= maxRegistrationFieldBytes) ∧
    stream = writeLengthPrefixedString name ++
      (writeU16 services.length ++ (services.flatMap writeLengthPrefixedString ++ rest))

def BeginsWithFrame (stream : Bytes) : Prop :=
  exists name services rest, IsFrame name services stream rest

/-!
# Numbers and strings
-/

variable {n : Nat} {stream rest : Bytes}

theorem readU16_writeU16 (h : n < 2 ^ 16) (rest : Bytes) :
    readU16 (writeU16 n ++ rest) = Except.ok (n, rest) := by
  have hvalue : (UInt8.ofNat (n / 256)).toNat * 256 + (UInt8.ofNat n).toNat = n := by
    rw [UInt8.toNat_ofNat', UInt8.toNat_ofNat']
    omega
  change Except.ok ((UInt8.ofNat (n / 256)).toNat * 256 + (UInt8.ofNat n).toNat, rest) = _
  rw [hvalue]

theorem readU16_eq_ok :
    readU16 stream = Except.ok (n, rest) <-> n < 2 ^ 16 ∧ stream = writeU16 n ++ rest := by
  constructor
  · intro h
    cases stream with
    | nil => cases h
    | cons high stream =>
        cases stream with
        | nil => cases h
        | cons low stream =>
            cases h
            have hhigh := high.toNat_lt
            have hlow := low.toNat_lt
            refine ⟨by omega, ?_⟩
            have hhigh' : UInt8.ofNat ((high.toNat * 256 + low.toNat) / 256) = high := by
              apply UInt8.toNat_inj.mp
              rw [UInt8.toNat_ofNat']
              omega
            have hlow' : UInt8.ofNat (high.toNat * 256 + low.toNat) = low := by
              apply UInt8.toNat_inj.mp
              rw [UInt8.toNat_ofNat']
              omega
            rw [writeU16, hhigh', hlow']
            rfl
  · intro h
    rw [h.2]
    exact readU16_writeU16 h.1 rest

theorem readExact_eq_ok {ε : Type} {eof : ε} {field : FixedBytes n} :
    readExact eof n stream = Except.ok (field, rest) <-> stream = field.toBytes ++ rest := by
  unfold readExact
  constructor
  · intro h
    split at h
    · cases h
      exact (List.take_append_drop n stream).symm
    · cases h
  · intro h
    have hlen : n <= stream.length := by
      rw [h, List.length_append, field.length_eq]
      exact Nat.le_add_right n _
    rw [dif_pos hlen]
    subst h
    congr 2
    · apply FixedBytes.ext_toBytes
      exact List.take_left' field.length_eq
    · exact List.drop_left' field.length_eq

theorem readLengthPrefixedString_eq_ok {text : Str} :
    readLengthPrefixedString stream = Except.ok (text, rest) <->
      (utf8 text).length <= maxRegistrationFieldBytes ∧
        stream = writeLengthPrefixedString text ++ rest := by
  have hmax : maxRegistrationFieldBytes = 4096 := rfl
  constructor
  · intro h
    rcases bind_eq_ok.mp h with ⟨⟨len, stream'⟩, hlen, h⟩
    dsimp only at h
    split at h
    · cases h
    · rename_i hfits
      rcases bind_eq_ok.mp h with ⟨⟨buf, rest'⟩, hbuf, h⟩
      dsimp only at h
      cases hutf8 : fromUtf8 buf.toBytes with
      | none =>
          rw [hutf8] at h
          cases h
      | some text' =>
          rw [hutf8] at h
          cases h
          have htext := fromUtf8_eq_some.mp hutf8
          rcases readU16_eq_ok.mp hlen with ⟨_, hstream⟩
          have hstream' := readExact_eq_ok.mp hbuf
          rw [writeLengthPrefixedString, htext, buf.length_eq, hstream, hstream',
            List.append_assoc]
          exact ⟨Nat.not_lt.mp hfits, rfl⟩
  · intro h
    rcases h with ⟨hfits, hstream⟩
    have hlen : readU16 stream = Except.ok ((utf8 text).length, utf8 text ++ rest) := by
      apply readU16_eq_ok.mpr
      refine ⟨by omega, ?_⟩
      rw [hstream, writeLengthPrefixedString, List.append_assoc]
    have hbuf : readExact TunnelError.io (utf8 text).length (utf8 text ++ rest) =
        Except.ok (⟨utf8 text, rfl⟩, rest) := readExact_eq_ok.mpr rfl
    have htext : fromUtf8 (utf8 text) = some text := fromUtf8_eq_some.mpr rfl
    refine bind_eq_ok.mpr ⟨_, hlen, ?_⟩
    dsimp only
    rw [if_neg (Nat.not_lt.mpr hfits)]
    refine bind_eq_ok.mpr ⟨_, hbuf, ?_⟩
    dsimp only
    rw [htext]
    rfl

/-!
# Frames
-/

theorem readServices_eq_ok {count : Nat} {services result : Finset Str} :
    readServices count services stream = Except.ok (result, rest) <->
      exists texts : List Str, texts.length = count ∧
        (forall text, text ∈ texts -> (utf8 text).length <= maxRegistrationFieldBytes) ∧
        stream = texts.flatMap writeLengthPrefixedString ++ rest ∧
        result = services ∪ texts.toFinset := by
  induction count generalizing services stream with
  | zero =>
      constructor
      · intro h
        cases h
        exact ⟨[], rfl, fun text htext => absurd htext List.not_mem_nil, rfl,
          (Finset.union_empty _).symm⟩
      · intro h
        rcases h with ⟨texts, hlen, _, hstream, hresult⟩
        rw [List.eq_nil_of_length_eq_zero hlen] at hstream hresult
        rw [readServices, hstream, hresult, List.toFinset_nil, Finset.union_empty]
        rfl
  | succ count ih =>
      constructor
      · intro h
        rcases bind_eq_ok.mp h with ⟨⟨service, stream'⟩, hservice, h⟩
        rcases readLengthPrefixedString_eq_ok.mp hservice with ⟨hfits, hstream⟩
        rcases ih.mp h with ⟨texts, hlen, htexts, hstream', hresult⟩
        refine ⟨service :: texts, by rw [List.length_cons, hlen], ?_, ?_, ?_⟩
        · intro text htext
          rcases List.mem_cons.mp htext with hfirst | hlater
          · rw [hfirst]
            exact hfits
          · exact htexts text hlater
        · rw [hstream, hstream', List.flatMap_cons, List.append_assoc]
        · rw [hresult, List.toFinset_cons, Finset.insert_union, Finset.union_insert]
      · intro h
        rcases h with ⟨texts, hlen, htexts, hstream, hresult⟩
        cases texts with
        | nil => cases hlen
        | cons service texts =>
            have hservice : readLengthPrefixedString stream =
                Except.ok (service, texts.flatMap writeLengthPrefixedString ++ rest) := by
              apply readLengthPrefixedString_eq_ok.mpr
              refine ⟨htexts service List.mem_cons_self, ?_⟩
              rw [hstream, List.flatMap_cons, List.append_assoc]
            refine bind_eq_ok.mpr ⟨_, hservice, ?_⟩
            apply ih.mpr
            refine ⟨texts, Nat.succ.inj hlen,
              (List.forall_mem_cons.mp htexts).2, rfl, ?_⟩
            rw [hresult, List.toFinset_cons, Finset.insert_union, Finset.union_insert]

theorem readRegistration_eq_ok {registration : Registration} :
    readRegistration stream = Except.ok (registration, rest) <->
      exists services, IsFrame registration.name services stream rest ∧
        registration.allowedServices = services.toFinset := by
  constructor
  · intro h
    rcases bind_eq_ok.mp h with ⟨⟨name, stream1⟩, hname, h⟩
    dsimp only at h
    split at h
    · cases h
    · rename_i hempty
      rcases bind_eq_ok.mp h with ⟨⟨count, stream2⟩, hcount, h⟩
      dsimp only at h
      split at h
      · cases h
      · rename_i hmany
        rcases bind_eq_ok.mp h with ⟨⟨services, stream3⟩, hservices, h⟩
        cases h
        rcases readLengthPrefixedString_eq_ok.mp hname with ⟨hnameFits, hstream⟩
        rcases readU16_eq_ok.mp hcount with ⟨_, hstream1⟩
        rcases readServices_eq_ok.mp hservices with ⟨texts, hlen, htexts, hstream2, hresult⟩
        refine ⟨texts, ⟨hempty, hnameFits, hlen ▸ Nat.not_lt.mp hmany, htexts, ?_⟩, ?_⟩
        · rw [hstream, hstream1, hstream2, hlen]
        · rw [hresult, Finset.empty_union]
  · intro h
    rcases h with ⟨services, ⟨hempty, hname, hcount, htexts, hstream⟩, hresult⟩
    have hmax : maxRegistrationServices = 256 := rfl
    have hcountRead : readU16 (writeU16 services.length ++
        (services.flatMap writeLengthPrefixedString ++ rest)) =
          Except.ok (services.length, services.flatMap writeLengthPrefixedString ++ rest) :=
      readU16_eq_ok.mpr ⟨by omega, rfl⟩
    have hservices : readServices services.length ∅
        (services.flatMap writeLengthPrefixedString ++ rest) =
          Except.ok (registration.allowedServices, rest) := by
      apply readServices_eq_ok.mpr
      refine ⟨services, rfl, htexts, rfl, ?_⟩
      rw [hresult, Finset.empty_union]
    refine bind_eq_ok.mpr ⟨_, readLengthPrefixedString_eq_ok.mpr ⟨hname, hstream⟩, ?_⟩
    dsimp only
    rw [if_neg hempty]
    refine bind_eq_ok.mpr ⟨_, hcountRead, ?_⟩
    dsimp only
    rw [if_neg (Nat.not_lt.mpr hcount)]
    exact bind_eq_ok.mpr ⟨_, hservices, rfl⟩

/-!
# One frame for each registration that fits
-/

theorem writeLengthPrefixedString_inj {a b : Str} {u v : Bytes}
    (ha : (utf8 a).length < 2 ^ 16) (hb : (utf8 b).length < 2 ^ 16)
    (h : writeLengthPrefixedString a ++ u = writeLengthPrefixedString b ++ v) : a = b ∧ u = v := by
  rw [writeLengthPrefixedString, writeLengthPrefixedString, List.append_assoc,
    List.append_assoc] at h
  have hread := readU16_writeU16 ha (utf8 a ++ u)
  rw [h, readU16_writeU16 hb] at hread
  injection hread with hread
  injection hread with hlen hrest
  rcases List.append_inj hrest hlen with ⟨htext, hvu⟩
  exact ⟨(utf8_injective htext).symm, hvu.symm⟩

theorem writeServices_inj {texts texts' : List Str} {u v : Bytes}
    (hlen : texts.length = texts'.length)
    (htexts : forall text, text ∈ texts -> (utf8 text).length < 2 ^ 16)
    (htexts' : forall text, text ∈ texts' -> (utf8 text).length < 2 ^ 16)
    (h : texts.flatMap writeLengthPrefixedString ++ u =
      texts'.flatMap writeLengthPrefixedString ++ v) : texts = texts' ∧ u = v := by
  induction texts generalizing texts' with
  | nil =>
      cases texts' with
      | nil => exact ⟨rfl, h⟩
      | cons text' texts' => cases hlen
  | cons text texts ih =>
      cases texts' with
      | nil => cases hlen
      | cons text' texts' =>
          rw [List.flatMap_cons, List.flatMap_cons, List.append_assoc, List.append_assoc] at h
          rcases writeLengthPrefixedString_inj (htexts text List.mem_cons_self)
            (htexts' text' List.mem_cons_self) h with ⟨hfirst, hrest⟩
          rcases ih (Nat.succ.inj hlen)
            (List.forall_mem_cons.mp htexts).2
            (fun t ht => htexts' t (List.mem_cons_of_mem text' ht)) hrest with ⟨hlater, huv⟩
          rw [hfirst, hlater]
          exact ⟨rfl, huv⟩

theorem fits_of_isFrame {registration : Registration} {services : List Str}
    (h : IsFrame registration.name services stream rest)
    (hservices : registration.allowedServices = services.toFinset) : Fits registration := by
  rcases h with ⟨_, hname, hcount, htexts, _⟩
  have hfield : maxRegistrationFieldBytes = 4096 := rfl
  have hmany : maxRegistrationServices = 256 := rfl
  refine ⟨by omega, ?_, ?_⟩
  · have hcard := List.toFinset_card_le services
    rw [<- hservices] at hcard
    omega
  · intro service hservice
    rw [hservices, List.mem_toFinset] at hservice
    have htext := htexts service hservice
    omega

theorem eq_of_isFrame {registration read : Registration} (hfits : Fits registration)
    (order : IterationOrder registration.allowedServices) {more : Bytes} {services : List Str}
    (h : IsFrame read.name services (writeRegistration registration order.toList ++ more) rest)
    (hservices : read.allowedServices = services.toFinset) : read = registration ∧ rest = more := by
  rcases h with ⟨_, hname, hcount, htexts, hstream⟩
  have hfield : maxRegistrationFieldBytes = 4096 := rfl
  have hmany : maxRegistrationServices = 256 := rfl
  rw [writeRegistration, List.append_assoc, List.append_assoc] at hstream
  rcases writeLengthPrefixedString_inj hfits.name (by omega) hstream with ⟨hsame, hstream⟩
  have hread := readU16_writeU16 hfits.count
    (order.toList.flatMap writeLengthPrefixedString ++ more)
  have hsmall : services.length < 2 ^ 16 := by omega
  rw [hstream, readU16_writeU16 hsmall] at hread
  injection hread with hread
  injection hread with hlen hrest
  have horder : forall text, text ∈ order.toList -> (utf8 text).length < 2 ^ 16 := by
    intro text htext
    apply hfits.services
    have hmem := List.mem_toFinset.mpr htext
    rw [order.toFinset_eq] at hmem
    exact hmem
  have htexts' : forall text, text ∈ services -> (utf8 text).length < 2 ^ 16 := by
    intro text htext
    have hfit := htexts text htext
    omega
  rcases writeServices_inj (hlen.trans order.length_eq.symm) htexts' horder hrest with
    ⟨hlist, hmore⟩
  refine ⟨?_, hmore⟩
  have hset : read.allowedServices = registration.allowedServices := by
    rw [hservices, hlist]
    exact order.toFinset_eq
  cases read
  cases registration
  cases hsame
  cases hset
  rfl

/--
Reading what was written returns it or fails, unless a length or the count was cut and the
bytes still start with a frame.
-/
theorem roundTrips_iff (registration : Registration)
    (order : IterationOrder registration.allowedServices) (more : Bytes) :
    RoundTrips registration order more <->
      Fits registration ∨
        Not (BeginsWithFrame (writeRegistration registration order.toList ++ more)) := by
  constructor
  · intro h
    by_cases hfits : Fits registration
    · exact Or.inl hfits
    · apply Or.inr
      intro hbegins
      rcases hbegins with ⟨name, services, rest, hframe⟩
      have hread := readRegistration_eq_ok.mpr
        ⟨services, show IsFrame (Registration.mk name services.toFinset).name _ _ _ from hframe,
          rfl⟩
      rcases h with hexact | ⟨e, herror⟩
      · rw [hread] at hexact
        injection hexact with hexact
        injection hexact with hsame _
        apply hfits
        rw [<- hsame]
        exact fits_of_isFrame hframe rfl
      · rw [hread] at herror
        cases herror
  · intro h
    cases hread : readRegistration (writeRegistration registration order.toList ++ more) with
    | error e => exact Or.inr ⟨e, hread⟩
    | ok result =>
        rcases result with ⟨read, rest⟩
        rcases readRegistration_eq_ok.mp hread with ⟨services, hframe, hservices⟩
        rcases h with hfits | hnone
        · rcases eq_of_isFrame hfits order hframe hservices with ⟨hsame, hrest⟩
          apply Or.inl
          rw [hread, hsame, hrest]
        · exact absurd ⟨read.name, services, rest, hframe⟩ hnone

/-!
A name of 65537 bytes is announced as one byte long.
-/

def zeroPadded (n : Nat) : Registration where
  name := 'a' :: List.replicate n (Char.ofNat 0)
  allowedServices := ∅

def noServices : IterationOrder (∅ : Finset Str) where
  toList := []
  nodup := List.nodup_nil
  toFinset_eq := rfl

theorem utf8_zeroPadded (n : Nat) : utf8 (zeroPadded n).name = 0x61 :: List.replicate n 0 := by
  change 0x61 :: utf8 (List.replicate n (Char.ofNat 0)) = _
  congr 1
  induction n with
  | zero => rfl
  | succ n ih =>
      change 0 :: utf8 (List.replicate n (Char.ofNat 0)) = 0 :: List.replicate n 0
      rw [ih]

theorem isFrame_zeroPadded (h : writeU16 (n + 3) = [0x00, 0x01]) :
    IsFrame ['a'] [] (writeRegistration (zeroPadded (n + 2)) [] ++ [])
      (List.replicate n 0 ++ [0x00, 0x00]) := by
  refine ⟨List.cons_ne_nil _ _, by decide, by decide,
    fun service hservice => absurd hservice List.not_mem_nil, ?_⟩
  rw [writeRegistration, writeLengthPrefixedString, utf8_zeroPadded, List.length_cons,
    List.length_replicate, h]
  have hname : writeLengthPrefixedString ['a'] = [0x00, 0x01, 0x61] := by decide +kernel
  have hcount : writeU16 0 = [0x00, 0x00] := by decide
  have hcard : (zeroPadded (n + 2)).allowedServices.card = 0 := rfl
  rw [hname, hcard, List.length_nil, hcount, List.replicate_succ, List.replicate_succ]
  simp

theorem short_name_roundTrips : RoundTrips (zeroPadded 1) noServices [] :=
  (roundTrips_iff _ _ _).mpr (Or.inl ⟨by decide +kernel, by decide, by simp [zeroPadded]⟩)

theorem long_name_reads_short :
    readRegistration (writeRegistration (zeroPadded 65536) noServices.toList ++ []) =
        Except.ok (⟨['a'], ∅⟩, List.replicate 65534 0 ++ [0x00, 0x00]) ∧
      Not (RoundTrips (zeroPadded 65536) noServices []) := by
  have hread : readRegistration (writeRegistration (zeroPadded 65536) noServices.toList ++ []) =
      Except.ok (⟨['a'], ∅⟩, List.replicate 65534 0 ++ [0x00, 0x00]) :=
    readRegistration_eq_ok.mpr
      ⟨[], isFrame_zeroPadded (show writeU16 (65534 + 3) = _ by decide), rfl⟩
  refine ⟨hread, ?_⟩
  intro h
  rcases h with hexact | ⟨e, herror⟩
  · rw [hread] at hexact
    injection hexact with hexact
    injection hexact with hsame _
    injection hsame with hname _
    injection hname with _ hrest
    have hlen := congrArg List.length hrest
    rw [List.length_replicate] at hlen
    cases hlen
  · rw [hread] at herror
    cases herror

end Auth
end Reachability
end Ephor
