import Ephor.Foundation.CanonicalCbor

/-!
# The substrate

What the economics crate takes from `kotva-core`: the canonical CBOR codec, the reader
of integer-keyed maps, the suite registry and the check of a signature.  The crate is
pinned by tag and its source is not part of this repository, so all of it enters the
model as the parameter `Kotva`, and what the descriptors rely on is `Lawful`.
-/

namespace Ephor
namespace Economics

open Foundation
open Foundation.CanonicalCbor

variable {key : UInt64}

inductive Suite where
  | classical
  | unimplemented
deriving DecidableEq

/-- The items of `kotva_core::{cbor, identity, suite}` that `descriptor.rs` imports.  A
reader consumes its fields, so `req` and `take` return what is left of it. -/
structure Kotva where
  Other : Type
  OtherCanonical : Other -> Prop
  CborError : Type
  IdentityError : Type
  Fields : Type
  encode : Cv Other -> Bytes
  decode : Bytes -> Except CborError (Cv Other)
  fieldsFromCv : Cv Other -> Except CborError Fields
  req : Fields -> UInt64 -> Except CborError (Cv Other × Fields)
  take : Fields -> UInt64 -> Option (Cv Other) × Fields
  denyUnknown : Fields -> Except CborError Unit
  intoPairs : Fields -> List (UInt64 × Cv Other)
  asU8 : Cv Other -> Except CborError UInt8
  asU64 : Cv Other -> Except CborError UInt64
  asText : Cv Other -> Except CborError String
  asBytes : Cv Other -> Except CborError ByteVec
  suiteFromU8 : UInt8 -> Option Suite
  verifyDomain : ByteVec -> Bytes -> Bytes -> ByteVec -> Except IdentityError Unit

namespace Kotva

structure Holds (K : Kotva) (f : K.Fields) (m : List (UInt64 × Cv K.Other)) : Prop where
  pairs : K.intoPairs f = m
  ascending : Ascending m

abbrev CanonicalCv (K : Kotva) (cv : Cv K.Other) : Prop :=
  Canonical K.OtherCanonical cv

/-- The documented behaviour of the substrate.  The codec is canonical in both
directions, a reader hands out the entries of a map by key, and the typed accessors
accept their own shape only. -/
structure Lawful (K : Kotva) : Prop where
  decode_encode : forall cv, K.CanonicalCv cv -> K.decode (K.encode cv) = Except.ok cv
  encode_decode : forall b cv, K.decode b = Except.ok cv -> K.encode cv = b
  decode_canonical : forall b cv, K.decode b = Except.ok cv -> K.CanonicalCv cv
  fieldsFromCv_map : forall m, Ascending m ->
    exists f, K.fieldsFromCv (Cv.map m) = Except.ok f ∧ K.intoPairs f = m
  fieldsFromCv_ok : forall cv f, K.fieldsFromCv cv = Except.ok f -> exists m, cv = Cv.map m
  take_found : forall f key, Ascending (K.intoPairs f) ->
    (K.take f key).1 = (K.intoPairs f).lookup key
  take_left : forall f key, Ascending (K.intoPairs f) ->
    K.intoPairs (K.take f key).2 = (K.intoPairs f).filter fun entry => entry.1 != key
  req_ok : forall f key cv rest,
    K.req f key = Except.ok (cv, rest) <-> K.take f key = (some cv, rest)
  denyUnknown_ok : forall f, K.denyUnknown f = Except.ok () <-> K.intoPairs f = []
  asU8_ok : forall cv b, K.asU8 cv = Except.ok b <-> cv = Cv.u64 b.toUInt64
  asU64_ok : forall cv v, K.asU64 cv = Except.ok v <-> cv = Cv.u64 v
  asText_ok : forall cv s, K.asText cv = Except.ok s <-> cv = Cv.text s
  asBytes_ok : forall cv b, K.asBytes cv = Except.ok b <-> cv = Cv.bytes b
  suiteFromU8_classical : forall b, K.suiteFromU8 b = some Suite.classical <-> b = 1

/-!
# Reading the fields of a map

A reader over canonical entries stays one.  What it hands out is canonical, and putting
it back among the entries that are left gives the entries before.
-/

section Reading

variable {K : Kotva} (lawful : K.Lawful)

include lawful

variable {cv : Cv K.Other} {f : K.Fields} {m : List (UInt64 × Cv K.Other)}

theorem fieldsFromCv_pairs (hcv : K.CanonicalCv cv) (h : K.fieldsFromCv cv = Except.ok f) :
    cv = Cv.map (K.intoPairs f) := by
  rcases lawful.fieldsFromCv_ok cv f h with ⟨m, hm⟩
  subst hm
  cases hcv with
  | map _ _ hkeys _ =>
      rcases lawful.fieldsFromCv_map m hkeys with ⟨g, hg, hpairs⟩
      rw [h] at hg
      cases hg
      rw [hpairs]

theorem take_canonical (key : UInt64) (hf : K.CanonicalCv (Cv.map (K.intoPairs f))) :
    K.CanonicalCv (Cv.map (K.intoPairs (K.take f key).2)) := by
  cases hf with
  | map _ hlen hkeys hvalues =>
      rw [lawful.take_left f key hkeys]
      refine Canonical.map _ ?_ (ascending_filter _ hkeys) ?_
      · exact Nat.lt_of_le_of_lt (List.length_filter_le _ _) hlen
      · intro entry hmem
        exact hvalues entry (List.mem_filter.mp hmem).1

theorem take_some {rest : K.Fields} (hf : K.CanonicalCv (Cv.map (K.intoPairs f)))
    (h : K.take f key = (some cv, rest)) :
    K.CanonicalCv cv ∧ K.CanonicalCv (Cv.map (K.intoPairs rest)) ∧
      K.intoPairs f = insertEntry key cv (K.intoPairs rest) := by
  have hrest := take_canonical lawful key hf
  cases hf with
  | map _ hlen hkeys hvalues =>
      have hfound := lawful.take_found f key hkeys
      have hleft := lawful.take_left f key hkeys
      rw [h] at hrest hfound hleft
      refine ⟨?_, hrest, ?_⟩
      · rcases List.lookup_eq_some_iff.mp hfound.symm with ⟨before, after, hm, _⟩
        apply hvalues (key, cv)
        rw [hm]
        exact List.mem_append_right _ (List.mem_cons_self ..)
      · rw [hleft, insertEntry_filter hkeys hfound.symm]

theorem take_none {rest : K.Fields} (hf : K.CanonicalCv (Cv.map (K.intoPairs f)))
    (h : K.take f key = (none, rest)) : K.intoPairs f = K.intoPairs rest := by
  cases hf with
  | map _ hlen hkeys hvalues =>
      have hfound := lawful.take_found f key hkeys
      have hleft := lawful.take_left f key hkeys
      rw [h] at hfound hleft
      rw [hleft, filter_of_lookup_none hfound.symm]

theorem req_some {rest : K.Fields} (hf : K.CanonicalCv (Cv.map (K.intoPairs f)))
    (h : K.req f key = Except.ok (cv, rest)) :
    K.CanonicalCv cv ∧ K.CanonicalCv (Cv.map (K.intoPairs rest)) ∧
      K.intoPairs f = insertEntry key cv (K.intoPairs rest) :=
  take_some lawful hf ((lawful.req_ok f key cv rest).mp h)

theorem holds_entries (h : K.Holds f m) (key : UInt64) :
    (K.take f key).1 = m.lookup key ∧
      K.intoPairs (K.take f key).2 = m.filter fun entry => entry.1 != key := by
  have hkeys : Ascending (K.intoPairs f) := by
    rw [h.pairs]
    exact h.ascending
  have hfound := lawful.take_found f key hkeys
  have hleft := lawful.take_left f key hkeys
  rw [h.pairs] at hfound hleft
  exact ⟨hfound, hleft⟩

theorem holds_take (h : K.Holds f ((key, cv) :: m)) :
    (K.take f key).1 = some cv ∧ K.Holds (K.take f key).2 m := by
  rcases holds_entries lawful h key with ⟨hfound, hleft⟩
  rw [List.lookup_cons_self] at hfound
  rw [filter_head h.ascending] at hleft
  exact ⟨hfound, hleft, ascending_tail h.ascending⟩

theorem holds_take_absent (key : UInt64) (h : K.Holds f m) (habsent : m.lookup key = none) :
    (K.take f key).1 = none ∧ K.Holds (K.take f key).2 m := by
  rcases holds_entries lawful h key with ⟨hfound, hleft⟩
  rw [habsent] at hfound
  rw [filter_of_lookup_none habsent] at hleft
  exact ⟨hfound, hleft, h.ascending⟩

theorem holds_req_last (h : K.Holds f (m ++ [(key, cv)])) :
    exists rest, K.req f key = Except.ok (cv, rest) ∧ K.Holds rest m := by
  rcases holds_entries lawful h key with ⟨hfound, hleft⟩
  rw [lookup_last h.ascending] at hfound
  rw [filter_last h.ascending] at hleft
  refine ⟨(K.take f key).2, ?_, hleft, (ascending_last h.ascending).1⟩
  exact (lawful.req_ok f key cv _).mpr (Prod.ext hfound rfl)

end Reading

/-!
# The results of the substrate in a decoder

A decoder wraps the errors of the codec in errors of its own and stops at the first one.
-/

theorem mapM_eq_ok {ε α β : Type} {decode : α -> Except ε β} {found : Option α}
    {r : Option β} (h : found.mapM decode = Except.ok r) :
    found = none ∧ r = none ∨ exists a b, found = some a ∧ decode a = Except.ok b ∧ r = some b := by
  cases found with
  | none =>
      cases h
      exact Or.inl ⟨rfl, rfl⟩
  | some a =>
      cases hdecode : decode a with
      | error e =>
          rw [Option.mapM_some, hdecode] at h
          cases h
      | ok b =>
          rw [Option.mapM_some, hdecode] at h
          cases h
          exact Or.inr ⟨a, b, rfl, hdecode, rfl⟩

section Decoding

variable {K : Kotva} (lawful : K.Lawful) {ε β : Type} {wrap : K.CborError -> ε} {r : β}

include lawful

theorem fields_bind {cv : Cv K.Other} {next : K.Fields -> Except ε β} (hcv : K.CanonicalCv cv)
    (h : ((K.fieldsFromCv cv).mapError wrap >>= next) = Except.ok r) :
    exists f, cv = Cv.map (K.intoPairs f) ∧ K.CanonicalCv (Cv.map (K.intoPairs f)) ∧
      next f = Except.ok r := by
  rcases bind_eq_ok.mp h with ⟨f, hf, hnext⟩
  have hmap := fieldsFromCv_pairs lawful hcv (mapError_eq_ok.mp hf)
  refine ⟨f, hmap, ?_, hnext⟩
  rw [<- hmap]
  exact hcv

theorem req_bind {f : K.Fields} {next : Cv K.Other × K.Fields -> Except ε β}
    (hf : K.CanonicalCv (Cv.map (K.intoPairs f)))
    (h : ((K.req f key).mapError wrap >>= next) = Except.ok r) :
    exists cv rest, K.CanonicalCv cv ∧ K.CanonicalCv (Cv.map (K.intoPairs rest)) ∧
      K.intoPairs f = insertEntry key cv (K.intoPairs rest) ∧
      next (cv, rest) = Except.ok r := by
  rcases bind_eq_ok.mp h with ⟨⟨cv, rest⟩, hreq, hnext⟩
  rcases req_some lawful hf (mapError_eq_ok.mp hreq) with ⟨hcv, hrest, hpairs⟩
  exact ⟨cv, rest, hcv, hrest, hpairs, hnext⟩

theorem asText_bind {cv : Cv K.Other} {next : String -> Except ε β}
    (h : ((K.asText cv).mapError wrap >>= next) = Except.ok r) :
    exists s, cv = Cv.text s ∧ next s = Except.ok r := by
  rcases bind_eq_ok.mp h with ⟨s, hs, hnext⟩
  exact ⟨s, (lawful.asText_ok cv s).mp (mapError_eq_ok.mp hs), hnext⟩

theorem asBytes_bind {cv : Cv K.Other} {next : ByteVec -> Except ε β}
    (h : ((K.asBytes cv).mapError wrap >>= next) = Except.ok r) :
    exists b, cv = Cv.bytes b ∧ next b = Except.ok r := by
  rcases bind_eq_ok.mp h with ⟨b, hb, hnext⟩
  exact ⟨b, (lawful.asBytes_ok cv b).mp (mapError_eq_ok.mp hb), hnext⟩

theorem asU64_bind {cv : Cv K.Other} {next : UInt64 -> Except ε β}
    (h : ((K.asU64 cv).mapError wrap >>= next) = Except.ok r) :
    exists v, cv = Cv.u64 v ∧ next v = Except.ok r := by
  rcases bind_eq_ok.mp h with ⟨v, hv, hnext⟩
  exact ⟨v, (lawful.asU64_ok cv v).mp (mapError_eq_ok.mp hv), hnext⟩

theorem denyUnknown_bind {f : K.Fields} {next : Unit -> Except ε β}
    (h : ((K.denyUnknown f).mapError wrap >>= next) = Except.ok r) :
    K.intoPairs f = [] ∧ next () = Except.ok r := by
  rcases bind_eq_ok.mp h with ⟨_, hdeny, hnext⟩
  exact ⟨(lawful.denyUnknown_ok f).mp (mapError_eq_ok.mp hdeny), hnext⟩

theorem bind_fieldsFromCv {m : List (UInt64 × Cv K.Other)} {next : K.Fields -> Except ε β}
    (hkeys : Ascending m) (h : forall f, K.Holds f m -> next f = Except.ok r) :
    ((K.fieldsFromCv (Cv.map m)).mapError wrap >>= next) = Except.ok r := by
  rcases lawful.fieldsFromCv_map m hkeys with ⟨f, hf, hpairs⟩
  exact bind_eq_ok.mpr ⟨f, mapError_eq_ok.mpr hf, h f ⟨hpairs, hkeys⟩⟩

theorem bind_req {f : K.Fields} {cv : Cv K.Other} {m : List (UInt64 × Cv K.Other)}
    {next : Cv K.Other × K.Fields -> Except ε β} (hf : K.Holds f ((key, cv) :: m))
    (h : forall rest, K.Holds rest m -> next (cv, rest) = Except.ok r) :
    ((K.req f key).mapError wrap >>= next) = Except.ok r := by
  rcases holds_take lawful hf with ⟨hfound, hrest⟩
  have hreq := (lawful.req_ok f key cv _).mpr (Prod.ext hfound rfl)
  exact bind_eq_ok.mpr ⟨_, mapError_eq_ok.mpr hreq, h _ hrest⟩

theorem bind_asText {s : String} {next : String -> Except ε β} (h : next s = Except.ok r) :
    ((K.asText (Cv.text s)).mapError wrap >>= next) = Except.ok r :=
  bind_eq_ok.mpr ⟨s, mapError_eq_ok.mpr ((lawful.asText_ok _ s).mpr rfl), h⟩

theorem bind_asBytes {b : ByteVec} {next : ByteVec -> Except ε β} (h : next b = Except.ok r) :
    ((K.asBytes (Cv.bytes b)).mapError wrap >>= next) = Except.ok r :=
  bind_eq_ok.mpr ⟨b, mapError_eq_ok.mpr ((lawful.asBytes_ok _ b).mpr rfl), h⟩

theorem bind_asU64 {v : UInt64} {next : UInt64 -> Except ε β} (h : next v = Except.ok r) :
    ((K.asU64 (Cv.u64 v)).mapError wrap >>= next) = Except.ok r :=
  bind_eq_ok.mpr ⟨v, mapError_eq_ok.mpr ((lawful.asU64_ok _ v).mpr rfl), h⟩

theorem bind_denyUnknown {f : K.Fields} {next : Unit -> Except ε β} (hf : K.Holds f [])
    (h : next () = Except.ok r) : ((K.denyUnknown f).mapError wrap >>= next) = Except.ok r :=
  bind_eq_ok.mpr ⟨(), mapError_eq_ok.mpr ((lawful.denyUnknown_ok f).mpr hf.pairs), h⟩

theorem take_mapM {α : Type} {f : K.Fields} {found : Option α}
    {decode : Cv K.Other -> Except ε α} (hf : K.CanonicalCv (Cv.map (K.intoPairs f)))
    (h : (K.take f key).1.mapM decode = Except.ok found) :
    found = none ∧ K.intoPairs f = K.intoPairs (K.take f key).2 ∨
      exists cv a, found = some a ∧ K.CanonicalCv cv ∧ decode cv = Except.ok a ∧
        K.intoPairs f = insertEntry key cv (K.intoPairs (K.take f key).2) := by
  rcases mapM_eq_ok h with ⟨hnone, hfound⟩ | ⟨cv, a, hsome, hdecode, hfound⟩
  · exact Or.inl ⟨hfound, take_none lawful hf (Prod.ext hnone rfl)⟩
  · rcases take_some lawful hf (Prod.ext hsome rfl) with ⟨hcv, _, hpairs⟩
    exact Or.inr ⟨cv, a, hfound, hcv, hdecode, hpairs⟩

end Decoding

/-!
# A lawful substrate

The canonical codec, a reader that keeps its entries in a list, and the suite registry,
over any check of signatures.
-/

def ofCodec (verifyDomain : ByteVec -> Bytes -> Bytes -> ByteVec -> Except Unit Unit) :
    Kotva where
  Other := Empty
  OtherCanonical := fun _ => True
  CborError := Unit
  IdentityError := Unit
  Fields := List (UInt64 × Cv Empty)
  encode := CanonicalCbor.encode
  decode := fun b => (CanonicalCbor.decode b).elim (Except.error ()) Except.ok
  fieldsFromCv := fun cv =>
    match cv with
    | Cv.map m => Except.ok m
    | _ => Except.error ()
  req := fun f key =>
    match f.lookup key with
    | some cv => Except.ok (cv, f.filter fun entry => entry.1 != key)
    | none => Except.error ()
  take := fun f key => (f.lookup key, f.filter fun entry => entry.1 != key)
  denyUnknown := fun f => if f = [] then Except.ok () else Except.error ()
  intoPairs := id
  asU8 := fun cv =>
    match cv with
    | Cv.u64 v => if v.toUInt8.toUInt64 = v then Except.ok v.toUInt8 else Except.error ()
    | _ => Except.error ()
  asU64 := fun cv =>
    match cv with
    | Cv.u64 v => Except.ok v
    | _ => Except.error ()
  asText := fun cv =>
    match cv with
    | Cv.text s => Except.ok s
    | _ => Except.error ()
  asBytes := fun cv =>
    match cv with
    | Cv.bytes b => Except.ok b
    | _ => Except.error ()
  suiteFromU8 := fun b =>
    if b = 1 then some Suite.classical
    else if 2 <= b ∧ b <= 5 then some Suite.unimplemented
    else none
  verifyDomain := verifyDomain

theorem decode_elim_eq_ok {x : Option (Cv Empty)} {cv : Cv Empty} :
    x.elim (Except.error ()) Except.ok = Except.ok cv <-> x = some cv := by
  cases x <;> simp

theorem lawful_ofCodec (verifyDomain : ByteVec -> Bytes -> Bytes -> ByteVec -> Except Unit Unit) :
    (ofCodec verifyDomain).Lawful where
  decode_encode := by
    intro cv hcv
    exact decode_elim_eq_ok.mpr (CanonicalCbor.decode_encode hcv)
  encode_decode := by
    intro b cv h
    have hread : Canonical (fun _ => True) cv ∧ CanonicalCbor.encode cv = b :=
      CanonicalCbor.decode_eq_some (decode_elim_eq_ok.mp h)
    exact hread.2
  decode_canonical := by
    intro b cv h
    exact (CanonicalCbor.decode_eq_some (decode_elim_eq_ok.mp h)).1
  fieldsFromCv_map := by
    intro m _
    exact ⟨m, rfl, rfl⟩
  fieldsFromCv_ok := by
    intro cv f h
    cases cv with
    | map m => exact ⟨m, rfl⟩
    | _ => cases h
  take_found := fun _ _ _ => rfl
  take_left := fun _ _ _ => rfl
  req_ok := by
    intro f key cv rest
    dsimp only [ofCodec]
    cases List.lookup key f with
    | none =>
        constructor
        · intro h
          cases h
        · intro h
          cases h
    | some found =>
        constructor
        · intro h
          cases h
          rfl
        · intro h
          cases h
          rfl
  denyUnknown_ok := by
    intro (f : List (UInt64 × Cv Empty))
    show (if f = [] then Except.ok () else Except.error ()) = Except.ok () <-> f = []
    split
    · rename_i hnil
      simp [hnil]
    · rename_i hne
      simp [hne]
  asU8_ok := by
    intro cv b
    cases cv with
    | u64 v =>
        dsimp only [ofCodec]
        constructor
        · intro h
          split at h
          · rename_i hbyte
            injection h with hb
            rw [<- hb, hbyte]
          · cases h
        · intro h
          injection h with hv
          rw [hv, UInt8.toUInt8_toUInt64, if_pos rfl]
    | _ =>
        constructor
        · intro h
          cases h
        · intro h
          cases h
  asU64_ok := by
    intro cv v
    cases cv <;> simp [ofCodec]
  asText_ok := by
    intro cv s
    cases cv <;> simp [ofCodec]
  asBytes_ok := by
    intro cv b
    cases cv <;> simp [ofCodec]
  suiteFromU8_classical := by
    intro b
    dsimp only [ofCodec]
    split
    · rename_i hb
      simp [hb]
    · rename_i hb
      split
      · simp [hb]
      · simp [hb]

end Kotva

end Economics
end Ephor
