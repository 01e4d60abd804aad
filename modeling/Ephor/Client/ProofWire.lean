import Ephor.Client.ChunkProof
import Ephor.Foundation.Framing
import Ephor.Foundation.JsNumber
import Ephor.Pubcache.ProofWire

/-!
# The browser half of the wire form

`readHead`, `decodeChunkProof`, `encodeChunkProof` and `pushHead` of
`client/src/chunkProof.ts`.  The argument of a head is a number: one of eight bytes is
rounded, and what is rounded lies beyond every bound that the decoder tests it against.
-/

namespace Ephor
namespace Client

open Foundation
open Pubcache
open Foundation.CanonicalCbor (ofBigEndian encodeHead)

/-!
# Heads
-/

/-- `CborHead`: the major type, the argument, and the bytes it takes. -/
structure CborHead where
  major : Nat
  arg : Nat
  bytesConsumed : Nat
deriving DecidableEq

/-- An argument in the `width` bytes after the first one.  The sums and shifts of the
source are exact on four bytes, and a bigint is on eight. -/
def wideArg (rest : Bytes) (width least : Nat) : Except ChunkProofError Nat :=
  if rest.length < width then
    Except.error (malformed "truncated cbor head")
  else if ofBigEndian (rest.take width) < least then
    Except.error (malformed "non-minimal cbor integer")
  else
    Except.ok (ofBigEndian (rest.take width))

def readHead (b : Bytes) : Except ChunkProofError CborHead :=
  match b with
  | [] => Except.error (malformed "truncated cbor")
  | b0 :: rest =>
      let major := (b0 >>> 5).toNat
      let ai := (b0 &&& 0x1f).toNat
      if ai < 24 then
        Except.ok ⟨major, ai, 1⟩
      else if ai = 24 then do
        let v <- wideArg rest 1 24
        return ⟨major, v, 2⟩
      else if ai = 25 then do
        let v <- wideArg rest 2 0x100
        return ⟨major, v, 3⟩
      else if ai = 26 then do
        let v <- wideArg rest 4 0x10000
        return ⟨major, v, 5⟩
      else if ai = 27 then do
        let v <- wideArg rest 8 0x100000000
        return ⟨major, JsNumber.round v, 9⟩
      else
        Except.error (malformed "reserved or indefinite-length cbor item")

/-!
# The decoder
-/

structure DecodedChunkProof where
  index : Nat
  path : List Bytes
deriving DecidableEq

/-- The loop of `decodeChunkProof`: the path elements, and the bytes after them. -/
def readHashes : Nat -> Bytes -> Except ChunkProofError (List Bytes × Bytes)
  | 0, b => Except.ok ([], b)
  | count + 1, b => do
      let head <- readHead b
      if head.major ≠ 2 ∨ head.arg ≠ digestLen then
        Except.error (malformed s!"proof element is not a {digestLen}-byte hash")
      else if (b.drop head.bytesConsumed).length < head.arg then
        Except.error (malformed "truncated proof path")
      else
        let (path, rest) <- readHashes count ((b.drop head.bytesConsumed).drop head.arg)
        return ((b.drop head.bytesConsumed).take head.arg :: path, rest)

def decodeChunkProof (b : Bytes) : Except ChunkProofError DecodedChunkProof := do
  let head0 <- readHead b
  if head0.major ≠ 4 ∨ head0.arg ≠ 2 then
    Except.error (malformed "proof is not a 2-element cbor array")
  else
    let head1 <- readHead (b.drop head0.bytesConsumed)
    if head1.major ≠ 0 then
      Except.error (malformed "proof index is not an unsigned integer")
    else if 2 ^ 20 < head1.arg then
      Except.error (malformed "proof index out of bounds")
    else
      let head2 <- readHead ((b.drop head0.bytesConsumed).drop head1.bytesConsumed)
      if head2.major ≠ 4 then
        Except.error (malformed "proof path is not a cbor array")
      else if maxProofPath < head2.arg then
        Except.error
          (malformed
            ("proof path of " ++ JsNumber.text head2.arg ++
              s!" exceeds the {maxProofPath}-level bound"))
      else
        let (path, rest) <- readHashes head2.arg
          (((b.drop head0.bytesConsumed).drop head1.bytesConsumed).drop head2.bytesConsumed)
        if rest.length ≠ 0 then
          Except.error (malformed s!"{rest.length} trailing bytes after proof")
        else
          return ⟨head1.arg, path⟩

/-!
# The encoder
-/

/-- `pushHead`, for a whole number: the shifts see the last 32 bits of it. -/
def pushHead (out : Bytes) (major v : Nat) : Bytes :=
  let m := major <<< 5
  let bits := UInt32.ofNat v
  if v < 24 then
    out ++ [UInt8.ofNat (m ||| v)]
  else if v <= 0xff then
    out ++ [UInt8.ofNat (m ||| 24), UInt8.ofNat v]
  else if v <= 0xffff then
    out ++ [UInt8.ofNat (m ||| 25), (bits >>> 8).toUInt8, bits.toUInt8]
  else
    out ++ [UInt8.ofNat (m ||| 26), (bits >>> 24).toUInt8, (bits >>> 16).toUInt8,
      (bits >>> 8).toUInt8, bits.toUInt8]

def pushHash (out h : Bytes) : Bytes :=
  pushHead out 2 h.length ++ h

def encodeChunkProof (index : Nat) (path : List Bytes) : Bytes :=
  let out := [0x82]
  let out := pushHead out 0 index
  let out := pushHead out 4 path.length
  path.foldl pushHash out

/-!
# The two scanners
-/

def headOfGo (head : Head) : CborHead :=
  ⟨head.major.toNat, JsNumber.round head.arg.toNat, head.size⟩

theorem wideArg_toOption (b0 : UInt8) (rest : Bytes) (major : UInt8) (width least : Nat)
    (hwidth : width <= 8) (hleast : least < 2 ^ 64) :
    (wideArg rest width least).toOption.map
        (fun v => (⟨major.toNat, JsNumber.round v, width + 1⟩ : CborHead)) =
      (wideHead (b0 :: rest) major width (UInt64.ofNat least)).toOption.map headOfGo := by
  have hnumber : (bigEndian (rest.take width)).toNat = ofBigEndian (rest.take width) :=
    toNat_bigEndian (Nat.le_trans (List.length_take_le _ _) hwidth)
  have hminimal : bigEndian (rest.take width) < UInt64.ofNat least <->
      ofBigEndian (rest.take width) < least := by
    rw [UInt64.lt_iff_toNat_lt, hnumber, UInt64.toNat_ofNat_of_lt' hleast]
  rw [wideArg, wideHead, List.length_cons, List.drop_one, List.tail_cons]
  by_cases hshort : rest.length < width
  · have hshort' : rest.length + 1 < width + 1 := by omega
    rw [if_pos hshort, if_pos hshort']
    rfl
  · have hlong : Not (rest.length + 1 < width + 1) := by omega
    rw [if_neg hshort, if_neg hlong]
    simp only [hminimal]
    split
    · rfl
    · rw [Except.toOption, Except.toOption, Option.map_some, Option.map_some, headOfGo, hnumber]

theorem wideArg_exact {rest : Bytes} {width least v : Nat} (hwidth : width <= 4)
    (h : wideArg rest width least = Except.ok v) : JsNumber.round v = v := by
  unfold wideArg at h
  split at h
  · cases h
  · split at h
    · cases h
    · injection h with h
      have hlen : (rest.take width).length <= 4 :=
        Nat.le_trans (List.length_take_le _ _) hwidth
      have hlt := CanonicalCbor.ofBigEndian_lt (rest.take width)
      have hpow := Nat.pow_le_pow_right (show 0 < 256 by decide) hlen
      rw [<- h]
      exact JsNumber.round_of_lt (by omega)

theorem narrowHead_toOption (b0 : UInt8) (rest : Bytes) (major : UInt8) {width least : Nat}
    (hwidth : width <= 4) (hleast : least < 2 ^ 64) :
    (do
      let v <- wideArg rest width least
      return (⟨major.toNat, v, width + 1⟩ : CborHead)).toOption =
      (wideHead (b0 :: rest) major width (UInt64.ofNat least)).toOption.map headOfGo := by
  rw [<- wideArg_toOption b0 rest major width least (by omega) hleast]
  cases harg : wideArg rest width least with
  | error e => rfl
  | ok v =>
      change some (⟨major.toNat, v, width + 1⟩ : CborHead) =
        some ⟨major.toNat, JsNumber.round v, width + 1⟩
      rw [wideArg_exact hwidth harg]

theorem readHead_toOption (b : Bytes) :
    (readHead b).toOption = (Pubcache.readHead b).toOption.map headOfGo := by
  cases b with
  | nil => rfl
  | cons b0 rest =>
      have hinfo : forall n : UInt8, b0 &&& 0x1f = n <-> (b0 &&& 0x1f).toNat = n.toNat := by
        intro n
        rw [<- UInt8.toNat_inj]
      rw [readHead, Pubcache.readHead]
      simp only [UInt8.lt_iff_toNat_lt, hinfo, UInt8.reduceToNat]
      -- the tests on the low bits stand in the same order in both sources
      split
      · rename_i hsmall
        rw [Except.toOption, Except.toOption, Option.map_some, headOfGo, UInt8.toNat_toUInt64,
          JsNumber.round_of_lt (by omega)]
      · split
        · exact narrowHead_toOption b0 rest _ (by decide) (by decide)
        · split
          · exact narrowHead_toOption b0 rest _ (by decide) (by decide)
          · split
            · exact narrowHead_toOption b0 rest _ (by decide) (by decide)
            · split
              · refine Eq.trans ?_
                  (wideArg_toOption b0 rest (b0 >>> 5) 8 0x100000000 (by decide) (by decide))
                cases wideArg rest 8 0x100000000 <;> rfl
              · rfl

/-!
# The two decoders
-/

theorem toOption_bind {ε ε' α β γ δ : Type} {x : Except ε α} {y : Except ε' β} {f : β -> α}
    {g : α -> Except ε γ} {h : β -> Except ε' δ} {k : δ -> γ}
    (hfirst : x.toOption = y.toOption.map f)
    (hrest : forall v, (g (f v)).toOption = (h v).toOption.map k) :
    (x >>= g).toOption = (y >>= h).toOption.map k := by
  cases y with
  | error e' =>
      cases x with
      | error e => rfl
      | ok v => cases hfirst
  | ok v =>
      cases x with
      | error e => cases hfirst
      | ok u =>
          injection hfirst with huv
          rw [huv]
          exact hrest v

theorem toNat_ne {x : UInt8} (n : UInt8) : x.toNat ≠ n.toNat <-> x ≠ n := by
  rw [Ne, UInt8.toNat_inj]

theorem lt_round_iff {bound v : Nat} (h : bound < 2 ^ 52) :
    bound < JsNumber.round v <-> bound < v := by
  rcases JsNumber.round_eq_or v with heq | ⟨hround, hv⟩
  · rw [heq]
  · exact iff_of_true (by omega) (by omega)

theorem round_eq_iff {n v : Nat} (h : n < 2 ^ 52) : JsNumber.round v = n <-> v = n := by
  rcases JsNumber.round_eq_or v with heq | ⟨hround, hv⟩
  · rw [heq]
  · exact iff_of_false (by omega) (by omega)

theorem readHashes_toOption (count : Nat) (b : Bytes) :
    (readHashes count b).toOption =
      (Pubcache.readHashes count b).toOption.map fun found =>
        (found.1.map FixedBytes.toBytes, found.2) := by
  induction count generalizing b with
  | zero => rfl
  | succ count ih =>
      rw [readHashes, Pubcache.readHashes]
      apply toOption_bind (readHead_toOption b)
      intro head
      have hform : ((headOfGo head).major ≠ 2 ∨ (headOfGo head).arg ≠ digestLen) <->
          head.major ≠ cborMajorByteStr ∨ head.arg ≠ UInt64.ofNat digestLen := by
        refine or_congr (toNat_ne cborMajorByteStr) (not_congr ?_)
        rw [headOfGo, round_eq_iff (by decide), <- UInt64.toNat_inj]
        rfl
      simp only [hform]
      split
      · rfl
      · rename_i hhead
        have harg : (headOfGo head).arg = digestLen := by
          have hsame := (not_or.mp (mt hform.mp hhead)).2
          rw [Classical.not_not] at hsame
          exact hsame
        have hsize : (headOfGo head).bytesConsumed = head.size := rfl
        rw [harg, hsize, takeHash]
        by_cases hlen : digestLen <= (b.drop head.size).length
        · rw [if_neg (Nat.not_lt.mpr hlen), dif_pos hlen]
          apply toOption_bind (ih _)
          intro found
          rfl
        · rw [if_pos (Nat.not_le.mp hlen), dif_neg hlen]
          rfl

theorem decodeChunkProof_toOption (b : Bytes) :
    (decodeChunkProof b).toOption =
      (Pubcache.decodeChunkProof b).toOption.map fun found =>
        ⟨found.1.toNat, found.2.map FixedBytes.toBytes⟩ := by
  rw [decodeChunkProof, Pubcache.decodeChunkProof]
  apply toOption_bind (readHead_toOption b)
  intro head0
  have hform : ((headOfGo head0).major ≠ 4 ∨ (headOfGo head0).arg ≠ 2) <->
      head0.major ≠ cborMajorArray ∨ head0.arg ≠ 2 := by
    refine or_congr (toNat_ne cborMajorArray) (not_congr ?_)
    rw [headOfGo, round_eq_iff (by decide), <- UInt64.toNat_inj]
    rfl
  simp only [hform]
  split
  · rfl
  · apply toOption_bind (readHead_toOption _)
    intro head1
    have hmajor1 : (headOfGo head1).major ≠ 0 <-> head1.major ≠ cborMajorUint :=
      toNat_ne cborMajorUint
    have hbound1 : 2 ^ 20 < (headOfGo head1).arg <-> maxCBORItems < head1.arg := by
      rw [headOfGo, lt_round_iff (by decide), UInt64.lt_iff_toNat_lt]
      rfl
    simp only [hmajor1, hbound1]
    split
    · rfl
    · split
      · rfl
      · rename_i hsmall
        apply toOption_bind (readHead_toOption _)
        intro head2
        have hmajor2 : (headOfGo head2).major ≠ 4 <-> head2.major ≠ cborMajorArray :=
          toNat_ne cborMajorArray
        have hbound2 : maxProofPath < (headOfGo head2).arg <->
            UInt64.ofNat maxProofPath < head2.arg := by
          rw [headOfGo, lt_round_iff (by decide), UInt64.lt_iff_toNat_lt]
          rfl
        simp only [hmajor2, hbound2]
        split
        · rfl
        · split
          · rfl
          · rename_i hshort
            have hcount : (headOfGo head2).arg = head2.arg.toNat := by
              have hlt : head2.arg.toNat < 2 ^ 53 := by
                rw [UInt64.lt_iff_toNat_lt] at hshort
                exact Nat.lt_of_le_of_lt (Nat.not_lt.mp hshort) (by decide)
              exact JsNumber.round_of_lt hlt
            have hindex : (headOfGo head1).arg = head1.arg.toNat := by
              have hlt : head1.arg.toNat < 2 ^ 53 := by
                rw [UInt64.lt_iff_toNat_lt] at hsmall
                exact Nat.lt_of_le_of_lt (Nat.not_lt.mp hsmall) (by decide)
              exact JsNumber.round_of_lt hlt
            rw [hcount, hindex]
            apply toOption_bind (readHashes_toOption _ _)
            intro found
            dsimp only
            split
            · rfl
            · rfl

/-!
# The two encoders
-/

theorem or_eq_firstByte (major : Fin 8) (info : Fin 32) :
    UInt8.ofNat (major.val <<< 5 ||| info.val) = CanonicalCbor.firstByte major info.val := by
  revert major info
  decide

theorem toUInt8_shiftRight {v : Nat} (hv : v < 2 ^ 32) (k : UInt32) (hk : k.toNat < 32) :
    (UInt32.ofNat v >>> k).toUInt8 = UInt8.ofNat (v / 2 ^ k.toNat) := by
  rw [Framing.toUInt8_shiftRight _ hk, UInt32.toNat_ofNat_of_lt' hv]

theorem pushHead_eq (out : Bytes) (major : Fin 8) {v : Nat} (hv : v < 2 ^ 32) :
    pushHead out major.val v = out ++ encodeHead major v := by
  have hlast : (UInt32.ofNat v).toUInt8 = UInt8.ofNat v := by
    rw [Framing.toUInt8_eq_ofNat, UInt32.toNat_ofNat_of_lt' hv]
  unfold pushHead encodeHead
  dsimp only
  by_cases htiny : v < 24
  · rw [if_pos htiny, if_pos htiny, or_eq_firstByte major ⟨v, by omega⟩]
  · rw [if_neg htiny, if_neg htiny]
    by_cases hone : v < 0x100
    · rw [if_pos (by omega), if_pos hone]
      exact congrArg (fun first => out ++ [first, _]) (or_eq_firstByte major 24)
    · rw [if_neg (by omega), if_neg hone]
      by_cases htwo : v < 0x10000
      · rw [if_pos (by omega), if_pos htwo, hlast, toUInt8_shiftRight hv 8 (by decide)]
        exact congrArg (fun first => out ++ first :: _) (or_eq_firstByte major 25)
      · have hbytes : CanonicalCbor.bigEndian 4 v =
            [UInt8.ofNat (v / 2 ^ 24), UInt8.ofNat (v / 2 ^ 16), UInt8.ofNat (v / 2 ^ 8),
              UInt8.ofNat v] := by
          simp [CanonicalCbor.bigEndian, Nat.div_div_eq_div_mul]
        have hfour : v < 0x100000000 := hv
        rw [if_neg (by omega), if_neg htwo, if_pos hfour, hlast,
          toUInt8_shiftRight hv 8 (by decide), toUInt8_shiftRight hv 16 (by decide),
          toUInt8_shiftRight hv 24 (by decide), hbytes]
        exact congrArg (fun first => out ++ first :: _) (or_eq_firstByte major 26)

theorem foldl_pushHash (out : Bytes) (path : List Digest) :
    (path.map FixedBytes.toBytes).foldl pushHash out = out ++ path.flatMap hashItem := by
  induction path generalizing out with
  | nil => exact (List.append_nil out).symm
  | cons h path ih =>
      have hstep : pushHash out h.toBytes = out ++ hashItem h := by
        rw [pushHash, h.length_eq, hashItem, <- List.append_assoc]
        exact congrArg (· ++ h.toBytes)
          (pushHead_eq out CanonicalCbor.majorBytes (show digestLen < 2 ^ 32 by decide))
      rw [List.map_cons, List.foldl_cons, ih, hstep, List.flatMap_cons, List.append_assoc]

theorem encodeChunkProof_eq_go {index : Nat} {path : List Digest} (hindex : index < 2 ^ 32)
    (hpath : path.length < 2 ^ 32) :
    encodeChunkProof index (path.map FixedBytes.toBytes) =
      Pubcache.encodeChunkProof index path := by
  have huint := pushHead_eq [0x82] CanonicalCbor.majorUint hindex
  have harray := pushHead_eq ([0x82] ++ encodeHead CanonicalCbor.majorUint index)
    Cbor.majorArray hpath
  rw [encodeChunkProof_eq (by omega) (by omega)]
  unfold encodeChunkProof
  dsimp only
  rw [List.length_map, show (0 : Nat) = CanonicalCbor.majorUint.val from rfl, huint,
    show (4 : Nat) = Cbor.majorArray.val from rfl, harray, foldl_pushHash, proofItem,
    List.append_assoc, List.append_assoc]
  rfl

/--
A proof within the bounds is decoded from its encoding, what is decoded encodes to the
bytes that were read, and the browser decodes the same byte strings to the same results
and encodes the same proofs to the same bytes.
-/
theorem chunkProof_wire_format :
    (forall (index : Nat) (path : List Digest), index <= 2 ^ 20 -> path.length <= maxProofPath ->
      Pubcache.decodeChunkProof (Pubcache.encodeChunkProof index path) =
        Except.ok ((index : Int), path)) ∧
    (forall (b : Bytes) (index : Int) (path : List Digest),
      Pubcache.decodeChunkProof b = Except.ok (index, path) ->
        Pubcache.encodeChunkProof index path = b) ∧
    (forall b : Bytes, (decodeChunkProof b).toOption =
      (Pubcache.decodeChunkProof b).toOption.map fun found =>
        ⟨found.1.toNat, found.2.map FixedBytes.toBytes⟩) ∧
    forall (index : Nat) (path : List Digest), index <= 2 ^ 20 -> path.length <= maxProofPath ->
      encodeChunkProof index (path.map FixedBytes.toBytes) =
        Pubcache.encodeChunkProof index path := by
  have hbound : maxProofPath < 2 ^ 32 := by decide
  refine ⟨?_, ?_, decodeChunkProof_toOption, ?_⟩
  · intro index path hindex hpath
    exact decodeChunkProof_eq_ok.mpr
      ⟨index, rfl, hindex, hpath, encodeChunkProof_eq (by omega) (by omega)⟩
  · intro b i path hok
    rcases decodeChunkProof_eq_ok.mp hok with ⟨index, rfl, hindex, hpath, rfl⟩
    exact encodeChunkProof_eq (by omega) (by omega)
  · intro index path hindex hpath
    exact encodeChunkProof_eq_go (by omega) (by omega)

theorem second_chunk_round_trips :
    Pubcache.decodeChunkProof (Pubcache.encodeChunkProof 1 [FixedBytes.zero 32]) =
      Except.ok (1, [FixedBytes.zero 32]) :=
  chunkProof_wire_format.1 1 _ (by decide) (by decide)

end Client
end Ephor
