import Ephor.Pubcache.CborGrammar
import Ephor.Pubcache.Proof

/-!
# The wire form of a range proof

`EncodeChunkProof` and `DecodeChunkProof` of `pubcache/proof.go`: the CBOR array of the
chunk index and the list of sibling hashes.  The decoder accepts the encodings of proofs
within its bounds and nothing else.
-/

namespace Ephor
namespace Pubcache

open Foundation
open Foundation.Cbor
open Foundation.CanonicalCbor (encodeHead firstByte majorUint majorBytes)

/-!
# The encoder
-/

def appendCBORUint (b : Bytes) (major : UInt8) (v : UInt64) : Bytes :=
  let m := major <<< 5
  if v < 24 then
    b ++ [m ||| v.toUInt8]
  else if v <= 0xff then
    b ++ [m ||| 24, v.toUInt8]
  else if v <= 0xffff then
    b ++ [m ||| 25, (v >>> 8).toUInt8, v.toUInt8]
  else if v <= 0xffffffff then
    b ++ [m ||| 26, (v >>> 24).toUInt8, (v >>> 16).toUInt8, (v >>> 8).toUInt8, v.toUInt8]
  else
    b ++ [m ||| 27, (v >>> 56).toUInt8, (v >>> 48).toUInt8, (v >>> 40).toUInt8,
      (v >>> 32).toUInt8, (v >>> 24).toUInt8, (v >>> 16).toUInt8, (v >>> 8).toUInt8,
      v.toUInt8]

/-- The body of the loop of `EncodeChunkProof`. -/
def appendHash (b : Bytes) (h : Digest) : Bytes :=
  appendCBORUint b cborMajorByteStr (UInt64.ofNat digestLen) ++ h.toBytes

def encodeChunkProof (index : Int) (path : List Digest) : Bytes :=
  let out := [0x82]
  let out := appendCBORUint out cborMajorUint (UInt64.ofInt index)
  let out := appendCBORUint out cborMajorArray (UInt64.ofNat path.length)
  path.foldl appendHash out

/-!
# The decoder
-/

/-- The next bytes as a hash, and the bytes after them. -/
def takeHash (b : Bytes) : Option (Digest × Bytes) :=
  if hlen : digestLen <= b.length then
    some (⟨b.take digestLen, List.length_take_of_le hlen⟩, b.drop digestLen)
  else
    none

/-- The loop of `DecodeChunkProof`: the hashes, and the bytes after them. -/
def readHashes : Nat -> Bytes -> Except Error (List Digest × Bytes)
  | 0, b => Except.ok ([], b)
  | count + 1, b => do
      let head <- readHead b
      if head.major ≠ cborMajorByteStr ∨ head.arg ≠ UInt64.ofNat digestLen then
        Except.error (malformed s!"proof element is not a {digestLen}-byte hash")
      else
        match takeHash (b.drop head.size) with
        | none => Except.error (malformed "truncated proof path")
        | some (h, b) =>
            let (path, rest) <- readHashes count b
            return (h :: path, rest)

def decodeChunkProof (b : Bytes) : Except Error (Int × List Digest) := do
  let head <- readHead b
  if head.major ≠ cborMajorArray ∨ head.arg ≠ 2 then
    Except.error (malformed "proof is not a 2-element cbor array")
  else
    let idx <- readHead (b.drop head.size)
    if idx.major ≠ cborMajorUint then
      Except.error (malformed "proof index is not an unsigned integer")
    else if maxCBORItems < idx.arg then
      Except.error (malformed "proof index out of bounds")
    else
      let count <- readHead ((b.drop head.size).drop idx.size)
      if count.major ≠ cborMajorArray then
        Except.error (malformed "proof path is not a cbor array")
      else if UInt64.ofNat maxProofPath < count.arg then
        Except.error
          (malformed
            s!"proof path of {count.arg.toNat} exceeds the {maxProofPath}-level bound")
      else
        let (path, rest) <-
          readHashes count.arg.toNat (((b.drop head.size).drop idx.size).drop count.size)
        if rest.length ≠ 0 then
          Except.error (malformed s!"{rest.length} trailing bytes after proof")
        else
          return ((idx.arg.toNat : Int), path)

/-!
# Heads
-/

theorem shift_or_eq_firstByte (major : Fin 8) (info : Fin 32) :
    (UInt8.ofNat major.val <<< 5 ||| UInt8.ofNat info.val) = firstByte major info.val := by
  revert major info
  decide

theorem toUInt8_shiftRight (v k : UInt64) (hk : k.toNat < 64) :
    (v >>> k).toUInt8 = UInt8.ofNat (v.toNat / 2 ^ k.toNat) := by
  apply UInt8.toNat_inj.mp
  rw [UInt64.toNat_toUInt8, UInt64.toNat_shiftRight, Nat.mod_eq_of_lt hk,
    Nat.shiftRight_eq_div_pow, UInt8.toNat_ofNat']

theorem toUInt8_eq_ofNat (v : UInt64) : v.toUInt8 = UInt8.ofNat v.toNat := by
  apply UInt8.toNat_inj.mp
  rw [UInt64.toNat_toUInt8, UInt8.toNat_ofNat']

theorem bigEndian_two (v : UInt64) :
    CanonicalCbor.bigEndian 2 v.toNat = [(v >>> 8).toUInt8, v.toUInt8] := by
  rw [toUInt8_eq_ofNat v, toUInt8_shiftRight v 8 (by decide)]
  rfl

theorem bigEndian_four (v : UInt64) :
    CanonicalCbor.bigEndian 4 v.toNat =
      [(v >>> 24).toUInt8, (v >>> 16).toUInt8, (v >>> 8).toUInt8, v.toUInt8] := by
  rw [toUInt8_eq_ofNat v, toUInt8_shiftRight v 8 (by decide), toUInt8_shiftRight v 16 (by decide),
    toUInt8_shiftRight v 24 (by decide)]
  simp [CanonicalCbor.bigEndian, Nat.div_div_eq_div_mul]

theorem bigEndian_eight (v : UInt64) :
    CanonicalCbor.bigEndian 8 v.toNat =
      [(v >>> 56).toUInt8, (v >>> 48).toUInt8, (v >>> 40).toUInt8, (v >>> 32).toUInt8,
        (v >>> 24).toUInt8, (v >>> 16).toUInt8, (v >>> 8).toUInt8, v.toUInt8] := by
  rw [toUInt8_eq_ofNat v, toUInt8_shiftRight v 8 (by decide), toUInt8_shiftRight v 16 (by decide),
    toUInt8_shiftRight v 24 (by decide), toUInt8_shiftRight v 32 (by decide),
    toUInt8_shiftRight v 40 (by decide), toUInt8_shiftRight v 48 (by decide),
    toUInt8_shiftRight v 56 (by decide)]
  simp [CanonicalCbor.bigEndian, Nat.div_div_eq_div_mul]

theorem appendCBORUint_eq (b : Bytes) (major : Fin 8) (v : UInt64) :
    appendCBORUint b (UInt8.ofNat major.val) v = b ++ encodeHead major v.toNat := by
  unfold appendCBORUint encodeHead
  dsimp only
  simp only [UInt64.lt_iff_toNat_lt, UInt64.le_iff_toNat_le, UInt64.reduceToNat]
  by_cases htiny : v.toNat < 24
  · rw [if_pos htiny, if_pos htiny, toUInt8_eq_ofNat v,
      shift_or_eq_firstByte major ⟨v.toNat, by omega⟩]
  · rw [if_neg htiny, if_neg htiny]
    by_cases hone : v.toNat < 0x100
    · rw [if_pos (by omega), if_pos hone, toUInt8_eq_ofNat v]
      exact congrArg (fun first => b ++ [first, _]) (shift_or_eq_firstByte major 24)
    · rw [if_neg (by omega), if_neg hone]
      by_cases htwo : v.toNat < 0x10000
      · rw [if_pos (by omega), if_pos htwo, bigEndian_two]
        exact congrArg (fun first => b ++ first :: _) (shift_or_eq_firstByte major 25)
      · rw [if_neg (by omega), if_neg htwo]
        by_cases hfour : v.toNat < 0x100000000
        · rw [if_pos (by omega), if_pos hfour, bigEndian_four]
          exact congrArg (fun first => b ++ first :: _) (shift_or_eq_firstByte major 26)
        · rw [if_neg (by omega), if_neg hfour, bigEndian_eight]
          exact congrArg (fun first => b ++ first :: _) (shift_or_eq_firstByte major 27)

/-!
# Proofs and their encodings
-/

def hashItem (h : Digest) : Bytes :=
  encodeHead majorBytes digestLen ++ h.toBytes

def proofItem (index : Nat) (path : List Digest) : Bytes :=
  encodeHead majorArray 2 ++ (encodeHead majorUint index ++
    (encodeHead majorArray path.length ++ path.flatMap hashItem))

theorem foldl_appendHash (b : Bytes) (path : List Digest) :
    path.foldl appendHash b = b ++ path.flatMap hashItem := by
  induction path generalizing b with
  | nil => exact (List.append_nil b).symm
  | cons h path ih =>
      have hstep : appendHash b h = b ++ hashItem h := by
        rw [appendHash, hashItem, <- List.append_assoc]
        exact congrArg (· ++ h.toBytes) (appendCBORUint_eq b majorBytes _)
      rw [List.foldl_cons, ih, hstep, List.flatMap_cons, List.append_assoc]

variable {path : List Digest} {b : Bytes}

theorem encodeChunkProof_eq {index : Nat} (hindex : index < 2 ^ 64)
    (hpath : path.length < 2 ^ 64) : encodeChunkProof index path = proofItem index path := by
  have hofInt : UInt64.ofInt index = UInt64.ofNat index := by
    have hmod : (index : Int) % 2 ^ 64 = index := Int.emod_eq_of_lt (by omega) (by omega)
    rw [UInt64.ofInt, hmod, Int.toNat_natCast]
  have hhead : forall (b : Bytes) (major : Fin 8) (n : Nat), n < 2 ^ 64 ->
      appendCBORUint b (UInt8.ofNat major.val) (UInt64.ofNat n) = b ++ encodeHead major n := by
    intro b major n hn
    rw [appendCBORUint_eq, UInt64.toNat_ofNat_of_lt' hn]
  have huint := hhead [0x82] majorUint index hindex
  have harray := hhead ([0x82] ++ encodeHead majorUint index) majorArray path.length hpath
  unfold encodeChunkProof
  dsimp only
  rw [hofInt, show cborMajorUint = UInt8.ofNat majorUint.val from rfl, huint,
    show cborMajorArray = UInt8.ofNat majorArray.val from rfl, harray, foldl_appendHash,
    proofItem, List.append_assoc, List.append_assoc]
  rfl

theorem takeHash_append (d : Digest) (rest : Bytes) :
    takeHash (d.toBytes ++ rest) = some (d, rest) := by
  have hlen : digestLen <= (d.toBytes ++ rest).length := by
    rw [List.length_append, d.length_eq]
    omega
  have htake : (d.toBytes ++ rest).take digestLen = d.toBytes := List.take_left' d.length_eq
  have hdrop : (d.toBytes ++ rest).drop digestLen = rest := List.drop_left' d.length_eq
  rw [takeHash, dif_pos hlen, hdrop]
  exact congrArg (fun h => some (h, rest)) (FixedBytes.ext_toBytes htake)

theorem eq_append_of_takeHash {rest : Bytes} {d : Digest} (h : takeHash b = some (d, rest)) :
    b = d.toBytes ++ rest := by
  unfold takeHash at h
  split at h
  · injection h with h
    injection h with hd hrest
    rw [<- hd, <- hrest]
    exact (List.take_append_drop digestLen b).symm
  · cases h

theorem eq_encodeHead_of_readHead {head : Head} (major : Fin 8)
    (h : readHead b = Except.ok head) (hmajor : head.major = UInt8.ofNat major.val) :
    b = encodeHead major head.arg.toNat ++ b.drop head.size := by
  rcases eq_headOf_of_readHead h with ⟨major', arg, rest, harg, rfl, rfl⟩
  rw [(ofNat_major_inj major' major).mp hmajor, toNat_arg_headOf major harg, drop_size_headOf]

theorem readHashes_eq_ok {count : Nat} {rest : Bytes} :
    readHashes count b = Except.ok (path, rest) <->
      path.length = count ∧ b = path.flatMap hashItem ++ rest := by
  constructor
  · intro h
    induction count generalizing b path rest with
    | zero =>
        injection h with h
        injection h with hpath hrest
        rw [<- hpath, <- hrest]
        exact ⟨rfl, rfl⟩
    | succ count ih =>
        rcases bind_eq_ok.mp h with ⟨head, hhead, hcheck⟩
        split at hcheck
        · cases hcheck
        · rename_i hform
          rcases not_or.mp hform with ⟨hmajor, harg⟩
          rw [Classical.not_not] at hmajor harg
          have hfront := eq_encodeHead_of_readHead majorBytes hhead hmajor
          split at hcheck
          · cases hcheck
          · rename_i d b' htake
            rcases bind_eq_ok.mp hcheck with ⟨⟨path', rest'⟩, hrec, hret⟩
            injection hret with hret
            injection hret with hpath hrest
            rcases ih hrec with ⟨hcount, hb⟩
            rw [harg, eq_append_of_takeHash htake, hb] at hfront
            rw [<- hpath, <- hrest]
            refine ⟨congrArg Nat.succ hcount, ?_⟩
            rw [List.flatMap_cons, hashItem, List.append_assoc, List.append_assoc]
            exact hfront
  · intro h
    rcases h with ⟨hcount, hb⟩
    induction path generalizing b count with
    | nil =>
        rw [<- hcount, hb]
        rfl
    | cons d path ih =>
        have hread : readHead b = Except.ok (headOf majorBytes digestLen) := by
          rw [hb, List.flatMap_cons, hashItem, List.append_assoc, List.append_assoc]
          exact readHead_encodeHead majorBytes _ (by decide)
        have htake : takeHash (b.drop (headOf majorBytes digestLen).size) =
            some (d, path.flatMap hashItem ++ rest) := by
          rw [hb, List.flatMap_cons, hashItem, List.append_assoc, List.append_assoc,
            drop_size_headOf, takeHash_append]
        have hform : Not ((headOf majorBytes digestLen).major ≠ cborMajorByteStr ∨
            (headOf majorBytes digestLen).arg ≠ UInt64.ofNat digestLen) := by decide
        rw [<- hcount, List.length_cons, readHashes, hread]
        simp only [bind, Except.bind]
        rw [if_neg hform, htake]
        simp only [ih rfl rfl]
        rfl

theorem eq_proofItem_of_decodeChunkProof {i : Int} (h : decodeChunkProof b = Except.ok (i, path)) :
    exists index : Nat, i = index ∧ index <= 2 ^ 20 ∧ path.length <= maxProofPath ∧
      b = proofItem index path := by
  rcases bind_eq_ok.mp h with ⟨outer, houter, h⟩
  split at h
  · cases h
  · rename_i hform
    rcases not_or.mp hform with ⟨hmajor, harg⟩
    rw [Classical.not_not] at hmajor harg
    have hfront := eq_encodeHead_of_readHead majorArray houter hmajor
    rcases bind_eq_ok.mp h with ⟨idx, hidx, h⟩
    split at h
    · cases h
    · rename_i hidxMajor
      rw [Classical.not_not] at hidxMajor
      have hsecond := eq_encodeHead_of_readHead majorUint hidx hidxMajor
      split at h
      · cases h
      · rename_i hidxBound
        rcases bind_eq_ok.mp h with ⟨count, hcount, h⟩
        split at h
        · cases h
        · rename_i hcountMajor
          rw [Classical.not_not] at hcountMajor
          have hthird := eq_encodeHead_of_readHead majorArray hcount hcountMajor
          split at h
          · cases h
          · rename_i hcountBound
            rcases bind_eq_ok.mp h with ⟨⟨path', rest⟩, hhashes, h⟩
            dsimp only at h
            split at h
            · cases h
            · rename_i hrest
              injection h with h
              injection h with hi hpath
              rw [Classical.not_not, List.length_eq_zero_iff] at hrest
              rcases readHashes_eq_ok.mp hhashes with ⟨hlen, hbody⟩
              rw [UInt64.lt_iff_toNat_lt] at hidxBound hcountBound
              refine ⟨idx.arg.toNat, hi.symm, Nat.not_lt.mp hidxBound, ?_, ?_⟩
              · rw [<- hpath, hlen]
                exact Nat.not_lt.mp hcountBound
              · rw [hbody, hrest, List.append_nil] at hthird
                rw [hthird] at hsecond
                rw [hsecond, harg] at hfront
                rw [proofItem, <- hpath, hlen]
                exact hfront

theorem decodeChunkProof_proofItem {index : Nat} (hindex : index <= 2 ^ 20)
    (hlen : path.length <= maxProofPath) :
    decodeChunkProof (proofItem index path) = Except.ok ((index : Int), path) := by
  have hread : forall (major : Fin 8) (n : Nat) (rest : Bytes), n < 2 ^ 64 ->
      readHead (encodeHead major n ++ rest) = Except.ok (headOf major n) ∧
        (encodeHead major n ++ rest).drop (headOf major n).size = rest ∧
        (headOf major n).arg.toNat = n :=
    fun major n rest hn => ⟨readHead_encodeHead major rest hn, drop_size_headOf major n rest,
      toNat_arg_headOf major hn⟩
  have hcount : path.length < 2 ^ 64 := Nat.lt_of_le_of_lt hlen (by decide)
  have hhashes : readHashes path.length (path.flatMap hashItem) = Except.ok (path, []) :=
    readHashes_eq_ok.mpr ⟨rfl, (List.append_nil _).symm⟩
  rcases hread majorArray 2 (encodeHead majorUint index ++
    (encodeHead majorArray path.length ++ path.flatMap hashItem)) (by decide) with
    ⟨houter, houterDrop, _⟩
  rcases hread majorUint index (encodeHead majorArray path.length ++ path.flatMap hashItem)
    (by omega) with ⟨hidx, hidxDrop, hidxArg⟩
  rcases hread majorArray path.length (path.flatMap hashItem) hcount with
    ⟨hthird, hthirdDrop, hthirdArg⟩
  have hidxBound : Not (maxCBORItems < (headOf majorUint index).arg) := by
    rw [UInt64.lt_iff_toNat_lt, hidxArg]
    exact Nat.not_lt.mpr hindex
  have hcountBound : Not (UInt64.ofNat maxProofPath < (headOf majorArray path.length).arg) := by
    rw [UInt64.lt_iff_toNat_lt, hthirdArg]
    exact Nat.not_lt.mpr hlen
  have hidxMajor : (headOf majorUint index).major = cborMajorUint := rfl
  have hcountMajor : (headOf majorArray path.length).major = cborMajorArray := rfl
  rw [decodeChunkProof, proofItem, houter]
  simp only [bind, Except.bind]
  rw [if_neg (by decide), houterDrop, hidx]
  dsimp only
  rw [if_neg (not_not.mpr hidxMajor), if_neg hidxBound, hidxDrop, hthird]
  dsimp only
  rw [if_neg (not_not.mpr hcountMajor), if_neg hcountBound, hthirdDrop, hthirdArg, hhashes]
  dsimp only
  rw [if_neg (by decide), hidxArg]
  rfl

theorem decodeChunkProof_eq_ok {i : Int} :
    decodeChunkProof b = Except.ok (i, path) <->
      exists index : Nat, i = index ∧ index <= 2 ^ 20 ∧ path.length <= maxProofPath ∧
        b = proofItem index path := by
  constructor
  · exact eq_proofItem_of_decodeChunkProof
  · intro h
    rcases h with ⟨index, rfl, hindex, hlen, rfl⟩
    exact decodeChunkProof_proofItem hindex hlen

end Pubcache
end Ephor
