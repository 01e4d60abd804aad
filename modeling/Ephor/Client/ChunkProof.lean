import Ephor.Pubcache.ProofSoundness

/-!
# The browser half of the range proof

`client/src/chunkProof.ts` repeats the verifier of `pubcache/proof.go` term by
term.  The preimages, the loop and the order of the checks are the same; what
differs is the arithmetic.  A JavaScript number holds every position exactly,
but `cur ^ 1` first truncates `cur` to a signed 32-bit integer.  The two sibling
tests therefore part ways exactly at a promoted node whose position needs more
than 31 bits.
-/

namespace Ephor
namespace Client

open Foundation
open Pubcache

/-!
# Errors and addresses
-/

/-- The diagnostic codes of `ChunkProofError`. -/
inductive ProofCode where
  | malformedProof
  | proofRange
  | proofInvalid
deriving DecidableEq

structure ChunkProofError where
  code : ProofCode
  message : String
deriving DecidableEq

def malformed (m : String) : ChunkProofError :=
  ⟨ProofCode.malformedProof, "chunkProof: " ++ m⟩

def rangeErr (m : String) : ChunkProofError :=
  ⟨ProofCode.proofRange, "chunkProof: " ++ m⟩

def invalid (m : String) : ChunkProofError :=
  ⟨ProofCode.proofInvalid, "chunkProof: " ++ m⟩

/-- A hexadecimal byte without leading zero, as `toString(16)` prints it. -/
def hexOf (b : UInt8) : String :=
  String.ofList (Nat.toDigits 16 b.toNat)

def utf16Length (s : String) : Nat :=
  (s.toList.map fun c => if c.toNat < 0x10000 then 1 else 2).sum

/-- The checks of `parseAddr` on the bytes that `atob` returned for `s`. -/
def addrOfDecoded (s : String) (out : Bytes) : Except ChunkProofError Addr :=
  if hlen : out.length = addrLen then
    if out.head? = some hashTag then
      if Addr.string ⟨out, hlen⟩ = s then
        Except.ok ⟨out, hlen⟩
      else
        Except.error (malformed "malformed content address: non-canonical encoding")
    else
      Except.error
        (malformed ("malformed content address: unsupported hash prefix 0x" ++
          hexOf (out.headD 0)))
  else
    Except.error
      (malformed
        s!"malformed content address: got {out.length} bytes, want {addrLen}")

/-- `parseAddr`: after the test on the alphabet, `atob` fails on lengths only. -/
def parseAddr (s : String) : Except ChunkProofError Addr :=
  if s = "" ∨ 64 < utf16Length s then
    Except.error (malformed "malformed content address")
  else if s.toList.all fun c => (Base64.value c).isSome then
    match Base64.decode s.toList with
    | none => Except.error (malformed "malformed content address: not base64url")
    | some out => addrOfDecoded s out
  else
    Except.error (malformed "malformed content address: not base64url")

/-- `AddressLike`: raw bytes in any of the buffer types, or the string form. -/
inductive AddressLike where
  | bytes (b : Bytes)
  | text (s : String)

def toAddr : AddressLike -> Except ChunkProofError Addr
  | AddressLike.text s => parseAddr s
  | AddressLike.bytes b =>
      if hlen : b.length = addrLen then
        if b.head? = some hashTag then
          Except.ok ⟨b, hlen⟩
        else
          Except.error
            (malformed
              ("address has unsupported hash prefix 0x" ++ hexOf (b.headD 0)))
      else
        Except.error
          (malformed s!"address must be {addrLen} bytes, got {b.length}")

/-!
# The verifier
-/

/-- `cur ^ 1` on a JavaScript number: the operand is truncated to 32 bits. -/
def xorOne (cur : Nat) : Int :=
  (Int32.ofNat cur ^^^ 1).toInt

/-- The browser test `const sib = cur ^ 1; sib < levelLen`. -/
def siblingInLevel (cur levelLen : Nat) : Bool :=
  decide (xorOne cur < levelLen)

def pathTooShort (used : Nat) : ChunkProofError :=
  invalid s!"path too short at level {used}"

def pathElement (s : Bytes) : Except ChunkProofError Digest :=
  if hlen : s.length = digestLen then
    Except.ok ⟨s, hlen⟩
  else
    Except.error (invalid s!"path element is not a {digestLen}-byte hash")

/-- The checks of `verifyChunkProof` after its loop. -/
def checkFold (rootAddr : Addr) (folded : Digest × List Digest) :
    Except ChunkProofError Unit :=
  if folded.2 = [] then
    if addrOfDigest folded.1 = rootAddr then
      Except.ok ()
    else
      Except.error
        (invalid ("folds to " ++ (addrOfDigest folded.1).string ++
          ", want root " ++ rootAddr.string))
  else
    Except.error (invalid s!"path has {folded.2.length} unused elements")

def verifyChunkProof (blake3 : Bytes -> Digest) (root : AddressLike)
    (nChunks index : Int) (chunk : Bytes) (path : List Bytes) :
    Except ChunkProofError Unit := do
  let rootAddr <- toAddr root
  if nChunks <= 0 then
    Except.error (rangeErr "empty tree")
  else if index < 0 ∨ nChunks <= index then
    Except.error (rangeErr s!"chunk {index} of {nChunks}")
  else if maxProofPath < path.length then
    Except.error
      (invalid s!"path of {path.length} exceeds the {maxProofPath}-level bound")
  else
    let digests <- path.mapM pathElement
    let folded <-
      foldPath (merkleNode blake3) pathTooShort siblingInLevel index.toNat
        nChunks.toNat 0
        (merkleLeaf blake3 (hashBytes blake3 chunk)) digests
    checkFold rootAddr folded

/-!
# The two sibling tests
-/

theorem xorOne_of_lt {cur : Nat} (h : cur < 2 ^ 31) : xorOne cur = ((cur ^^^ 1 : Nat) : Int) := by
  have hmod : cur % 2 ^ 32 = cur := Nat.mod_eq_of_lt (by omega)
  have hxor : cur ^^^ 1 < 2 ^ 31 := Nat.xor_lt_two_pow h (by decide)
  change (BitVec.ofNat 32 cur ^^^ BitVec.ofNat 32 1).toInt = _
  rw [BitVec.toInt_eq_toNat_cond, BitVec.toNat_xor, BitVec.toNat_ofNat, hmod]
  rw [show (BitVec.ofNat 32 1).toNat = 1 from rfl, if_pos (by omega)]

theorem xorOne_lt (cur : Nat) : xorOne cur < 2 ^ 31 := by
  have h := BitVec.two_mul_toInt_lt (x := BitVec.ofNat 32 cur ^^^ BitVec.ofNat 32 1)
  change (BitVec.ofNat 32 cur ^^^ BitVec.ofNat 32 1).toInt < 2 ^ 31
  omega

theorem siblingInLevel_eq {cur levelLen : Nat} (h : cur < levelLen) :
    siblingInLevel cur levelLen =
      (Pubcache.siblingInLevel cur levelLen || decide (2 ^ 31 <= cur)) := by
  unfold siblingInLevel Pubcache.siblingInLevel
  by_cases hbig : 2 ^ 31 <= cur
  · have hlt := xorOne_lt cur
    rw [decide_eq_true (show xorOne cur < levelLen by omega), decide_eq_true hbig,
      Bool.or_true]
  · rw [decide_eq_false hbig, Bool.or_false, xorOne_of_lt (by omega)]
    simp only [Int.ofNat_lt]

/-- Both tests see the sibling, or the lack of one, at this position. -/
def TestsAgreeAt (cur levelLen : Nat) : Prop :=
  cur + 1 = levelLen -> cur % 2 = 0 -> cur < 2 ^ 31

theorem testsAgreeAt_iff {cur levelLen : Nat} (h : cur < levelLen) :
    TestsAgreeAt cur levelLen <->
      siblingInLevel cur levelLen = Pubcache.siblingInLevel cur levelLen := by
  rw [siblingInLevel_eq h]
  unfold TestsAgreeAt Pubcache.siblingInLevel
  by_cases heven : cur % 2 = 0
  · rw [xor_one_of_even heven]
    by_cases hlast : cur + 1 = levelLen
    · simp [hlast, heven]
    · have hlt : cur + 1 < levelLen := by omega
      simp [hlast, hlt]
  · rw [xor_one_of_odd (by omega)]
    have hlt : cur - 1 < levelLen := by omega
    simp [heven, hlt]

/-!
# The number of path elements
-/

/-- The path elements that the loop consumes, from the widths alone. -/
def pathLength (hasSibling : Nat -> Nat -> Bool) (cur levelLen : Nat) : Nat :=
  if 1 < levelLen then
    (hasSibling cur levelLen).toNat +
      pathLength hasSibling (cur / 2) ((levelLen + 1) / 2)
  else
    0
termination_by levelLen

section Climb

variable {digest : Type} {node : digest -> digest -> digest}
variable {ε : Type} {tooShort : Nat -> ε}

variable (node tooShort) in
theorem foldPath_eq_ok_nil_iff (hasSibling : Nat -> Nat -> Bool)
    (cur levelLen used : Nat) (acc : digest) (path : List digest) :
    (exists top,
      foldPath node tooShort hasSibling cur levelLen used acc path =
        Except.ok (top, [])) <->
      path.length = pathLength hasSibling cur levelLen := by
  fun_induction foldPath node tooShort hasSibling cur levelLen used acc path with
  | case1 cur levelLen used acc hlen hsib =>
      rw [pathLength, if_pos hlen, hsib]
      constructor
      · intro hok
        rcases hok with ⟨top, htop⟩
        cases htop
      · intro h
        rw [List.length_nil, Bool.toNat_true] at h
        omega
  | case2 cur levelLen used acc hlen hsib s rest ih =>
      rw [dite_eq_ite] at ih
      rw [ih, pathLength.eq_def hasSibling cur, if_pos hlen, hsib, List.length_cons,
        Bool.toNat_true]
      omega
  | case3 cur levelLen used acc path hlen hsib ih =>
      rw [ih, pathLength.eq_def hasSibling cur, if_pos hlen,
        Bool.eq_false_of_not_eq_true hsib, Bool.toNat_false, Nat.zero_add]
  | case4 cur levelLen used acc path hlen =>
      rw [pathLength, if_neg hlen]
      constructor
      · intro hok
        rcases hok with ⟨top, htop⟩
        injection htop with hpair
        injection hpair with _ hnil
        rw [hnil, List.length_nil]
      · intro h
        rw [List.length_eq_zero_iff.mp h]
        exact ⟨acc, rfl⟩

end Climb

/--
At every level of a tree of `nChunks` leaves where the ancestor of `index` is
promoted, its position fits in 31 bits.
-/
def PromotedWithinInt32 (nChunks index : Nat) : Prop :=
  forall k, TestsAgreeAt (index / 2 ^ k) ((nChunks - 1) / 2 ^ k + 1)

theorem promotedWithinInt32_step {nChunks index : Nat} (h : 0 < nChunks) :
    PromotedWithinInt32 nChunks index <->
      TestsAgreeAt index nChunks ∧
        PromotedWithinInt32 ((nChunks + 1) / 2) (index / 2) := by
  have hwidth : (nChunks + 1) / 2 - 1 = (nChunks - 1) / 2 := by omega
  have hup : forall k, index / 2 / 2 ^ k = index / 2 ^ (k + 1) ∧
      (nChunks - 1) / 2 / 2 ^ k = (nChunks - 1) / 2 ^ (k + 1) := by
    intro k
    rw [Nat.div_div_eq_div_mul, Nat.div_div_eq_div_mul, Nat.pow_succ']
    exact ⟨rfl, rfl⟩
  unfold PromotedWithinInt32
  rw [hwidth]
  constructor
  · intro hall
    constructor
    · have hzero := hall 0
      rw [Nat.pow_zero, Nat.div_one, Nat.div_one, Nat.sub_add_cancel h] at hzero
      exact hzero
    · intro k
      rw [(hup k).1, (hup k).2]
      exact hall (k + 1)
  · intro h
    rcases h with ⟨hzero, hall⟩
    intro k
    cases k with
    | zero =>
        rw [Nat.pow_zero, Nat.div_one, Nat.div_one, Nat.sub_add_cancel h]
        exact hzero
    | succ k =>
        rw [<- (hup k).1, <- (hup k).2]
        exact hall k

theorem promotedWithinInt32_of_lt {nChunks index : Nat} (h : index < 2 ^ 31) :
    PromotedWithinInt32 nChunks index := by
  intro k _ _
  exact lt_of_le_of_lt (Nat.div_le_self _ _) h

theorem pathLength_compare {index nChunks : Nat} (h : index < nChunks) :
    pathLength Pubcache.siblingInLevel index nChunks <=
        pathLength siblingInLevel index nChunks ∧
      (pathLength siblingInLevel index nChunks =
          pathLength Pubcache.siblingInLevel index nChunks <->
        PromotedWithinInt32 nChunks index) := by
  fun_induction pathLength siblingInLevel index nChunks with
  | case1 cur levelLen hlen ih =>
      rcases ih (by omega) with ⟨hle, heq⟩
      rw [pathLength, if_pos hlen, promotedWithinInt32_step (by omega), <- heq,
        testsAgreeAt_iff h]
      have hsib := siblingInLevel_eq h
      cases hgo : Pubcache.siblingInLevel cur levelLen with
      | true =>
          rw [hgo, Bool.true_or] at hsib
          rw [hsib]
          constructor
          · omega
          · constructor
            · intro hsum
              exact ⟨rfl, by omega⟩
            · intro h
              rcases h with ⟨_, hrest⟩
              rw [hrest]
      | false =>
          cases hjs : siblingInLevel cur levelLen with
          | true =>
              rw [Bool.toNat_true, Bool.toNat_false]
              constructor
              · omega
              · constructor
                · intro hsum
                  omega
                · intro h
                  rcases h with ⟨hne, _⟩
                  cases hne
          | false =>
              constructor
              · omega
              · constructor
                · intro hsum
                  exact ⟨rfl, by omega⟩
                · intro h
                  rcases h with ⟨_, hrest⟩
                  rw [hrest]
  | case2 cur levelLen hlen =>
      rw [pathLength, if_neg hlen]
      refine ⟨Nat.le_refl 0, iff_of_true rfl (promotedWithinInt32_of_lt (by omega))⟩

section Climb

variable {digest : Type} {node : digest -> digest -> digest}
variable {ε ζ : Type} {tooShort : Nat -> ε}

theorem foldPath_agree (tooShort' : Nat -> ζ) (cur levelLen used : Nat)
    (acc : digest) (path : List digest) (result : digest × List digest)
    (hcur : cur < levelLen) (hint32 : PromotedWithinInt32 levelLen cur) :
    foldPath node tooShort siblingInLevel cur levelLen used acc path =
        Except.ok result <->
      foldPath node tooShort' Pubcache.siblingInLevel cur levelLen used acc path =
        Except.ok result := by
  fun_induction foldPath node tooShort siblingInLevel cur levelLen used acc path with
  | case1 cur levelLen used acc hlen hsib =>
      rcases (promotedWithinInt32_step (by omega)).mp hint32 with ⟨htests, _⟩
      rw [foldPath, if_pos hlen, <- (testsAgreeAt_iff hcur).mp htests, hsib,
        if_pos rfl]
      constructor
      · intro h
        cases h
      · intro h
        cases h
  | case2 cur levelLen used acc hlen hsib s rest ih =>
      rcases (promotedWithinInt32_step (by omega)).mp hint32 with ⟨htests, hup⟩
      rw [foldPath, if_pos hlen, <- (testsAgreeAt_iff hcur).mp htests, hsib,
        if_pos rfl]
      exact ih (by omega) hup
  | case3 cur levelLen used acc path hlen hsib ih =>
      rcases (promotedWithinInt32_step (by omega)).mp hint32 with ⟨htests, hup⟩
      rw [foldPath.eq_def node tooShort', if_pos hlen,
        <- (testsAgreeAt_iff hcur).mp htests, if_neg hsib]
      exact ih (by omega) hup
  | case4 cur levelLen used acc path hlen =>
      rw [foldPath.eq_def node tooShort', if_neg hlen]
      constructor
      · intro h
        injection h with hresult
        rw [hresult]
      · intro h
        injection h with hresult
        rw [hresult]

end Climb

/-!
# Agreement with the Go verifier
-/

variable {nChunks index : Int} {root : Addr} {chunk : Bytes} {path : List Digest}

section Agreement

variable {blake3 : Bytes -> Digest}

theorem mapM_pathElement (path : List Digest) :
    (path.map FixedBytes.toBytes).mapM pathElement = Except.ok path := by
  induction path with
  | nil => rfl
  | cons d rest ih =>
      have hhead : pathElement d.toBytes = Except.ok d := dif_pos d.length_eq
      rw [List.map_cons, List.mapM_cons, ih, hhead]
      rfl

theorem toAddr_of_head (h : root.toBytes.head? = some hashTag) :
    toAddr (AddressLike.bytes root.toBytes) = Except.ok root := by
  rw [toAddr, dif_pos root.length_eq, if_pos h]

theorem toAddr_eq_ok {rootAddr : Addr}
    (h : toAddr (AddressLike.bytes root.toBytes) = Except.ok rootAddr) : rootAddr = root := by
  rw [toAddr, dif_pos root.length_eq] at h
  split at h
  · injection h with heq
    exact heq.symm
  · cases h

theorem checkFold_eq_ok {rootAddr : Addr} {folded : Digest × List Digest} :
    checkFold rootAddr folded = Except.ok () <->
      folded.2 = [] ∧ addrOfDigest folded.1 = rootAddr := by
  unfold checkFold
  split
  · rename_i hunused
    split
    · rename_i hroot
      exact iff_of_true rfl ⟨hunused, hroot⟩
    · rename_i hroot
      exact iff_of_false (fun h => by cases h) (fun h => hroot h.2)
  · rename_i hunused
    exact iff_of_false (fun h => by cases h) (fun h => hunused h.1)

theorem verifyChunkProof_eq_ok_iff :
    verifyChunkProof blake3 (AddressLike.bytes root.toBytes) nChunks index chunk
        (path.map FixedBytes.toBytes) = Except.ok () <->
      0 <= index ∧ index < nChunks ∧ path.length <= maxProofPath ∧
      exists top,
        foldPath (merkleNode blake3) pathTooShort siblingInLevel index.toNat
            nChunks.toNat 0 (merkleLeaf blake3 (hashBytes blake3 chunk)) path =
          Except.ok (top, []) ∧
        addrOfDigest top = root := by
  rw [<- Pubcache.fold_bind_eq_ok fun _ => checkFold_eq_ok]
  unfold verifyChunkProof
  rw [List.length_map, mapM_pathElement]
  cases haddr : toAddr (AddressLike.bytes root.toBytes) with
  | error e =>
      refine iff_of_false (fun h => by cases h) ?_
      intro h
      rcases (Pubcache.fold_bind_eq_ok fun _ => checkFold_eq_ok).mp h.2.2.2 with ⟨top, _, rfl⟩
      rw [toAddr_of_head rfl] at haddr
      cases haddr
  | ok rootAddr =>
      rw [toAddr_eq_ok haddr]
      change (if nChunks <= 0 then _ else _) = _ <-> _
      split
      · exact iff_of_false (fun h => by cases h) (fun h => by omega)
      · split
        · exact iff_of_false (fun h => by cases h) (fun h => by omega)
        · split
          · exact iff_of_false (fun h => by cases h) (fun h => by omega)
          · exact ⟨fun h => ⟨by omega, by omega, by omega, h⟩, fun h => h.2.2.2⟩

def VerifiersAgree (blake3 : Bytes -> Digest) (root : Addr) (nChunks index : Int)
    (chunk : Bytes) (path : List Digest) : Prop :=
  verifyChunkProof blake3 (AddressLike.bytes root.toBytes) nChunks index chunk
      (path.map FixedBytes.toBytes) = Except.ok () <->
    Pubcache.verifyChunkProof blake3 root nChunks index chunk path = Except.ok ()

theorem verifiersAgree_of_promotedWithinInt32 (hlow : 0 <= index) (hhigh : index < nChunks)
    (hint32 : PromotedWithinInt32 nChunks.toNat index.toNat) :
    VerifiersAgree blake3 root nChunks index chunk path := by
  have hcur : index.toNat < nChunks.toNat := by omega
  unfold VerifiersAgree
  rw [verifyChunkProof_eq_ok_iff, verifyChunkProof_eq_ok]
  constructor
  · intro hok
    rcases hok with ⟨_, _, hpath, top, hfold, hroot⟩
    refine ⟨hlow, hhigh, hpath, top, ?_, hroot⟩
    exact (foldPath_agree Pubcache.pathTooShort _ _ _ _ _ _ hcur hint32).mp hfold
  · intro hok
    rcases hok with ⟨_, _, hpath, top, hfold, hroot⟩
    refine ⟨hlow, hhigh, hpath, top, ?_, hroot⟩
    exact (foldPath_agree Pubcache.pathTooShort _ _ _ _ _ _ hcur hint32).mpr hfold

theorem length_of_verifyChunkProof_ok
    (hok : verifyChunkProof blake3 (AddressLike.bytes root.toBytes) nChunks index
      chunk (path.map FixedBytes.toBytes) = Except.ok ()) :
    path.length = pathLength siblingInLevel index.toNat nChunks.toNat := by
  rcases verifyChunkProof_eq_ok_iff.mp hok with ⟨_, _, _, top, hfold, _⟩
  exact (foldPath_eq_ok_nil_iff _ _ _ _ _ _ _ _).mp ⟨top, hfold⟩

theorem length_of_goVerifyChunkProof_ok
    (hok : Pubcache.verifyChunkProof blake3 root nChunks index chunk path = Except.ok ()) :
    path.length = pathLength Pubcache.siblingInLevel index.toNat nChunks.toNat := by
  rcases verifyChunkProof_eq_ok.mp hok with ⟨_, _, _, top, hfold, _⟩
  exact (foldPath_eq_ok_nil_iff _ _ _ _ _ _ _ _).mp ⟨top, hfold⟩

theorem pathLength_le_clog (hasSibling : Nat -> Nat -> Bool) (cur levelLen : Nat) :
    pathLength hasSibling cur levelLen <= Nat.clog 2 levelLen := by
  fun_induction pathLength hasSibling cur levelLen with
  | case1 cur levelLen hlen ih =>
      have hbit : (hasSibling cur levelLen).toNat <= 1 := Bool.toNat_le _
      rw [Nat.clog_of_two_le (by omega) (by omega),
        show (levelLen + 2 - 1) / 2 = (levelLen + 1) / 2 by omega]
      omega
  | case2 cur levelLen hlen => exact Nat.zero_le _

variable (blake3) in
theorem exists_goVerifyChunkProof_ok (chunk : Bytes) (hlow : 0 <= index)
    (hhigh : index < nChunks) (hbound : nChunks <= 2 ^ 40) :
    exists root path,
      Pubcache.verifyChunkProof blake3 root nChunks index chunk path =
        Except.ok () := by
  let count := pathLength Pubcache.siblingInLevel index.toNat nChunks.toNat
  let path : List Digest := List.replicate count (FixedBytes.zero digestLen)
  have hlen : path.length = count := List.length_replicate
  have hcount : count <= 40 :=
    le_trans (pathLength_le_clog _ _ _) (Nat.clog_le_of_le_pow (by omega))
  rcases (foldPath_eq_ok_nil_iff (merkleNode blake3) Pubcache.pathTooShort
      Pubcache.siblingInLevel index.toNat nChunks.toNat 0
      (merkleLeaf blake3 (hashBytes blake3 chunk)) path).mpr hlen with
    ⟨top, hfold⟩
  refine ⟨addrOfDigest top, path, verifyChunkProof_eq_ok.mpr ?_⟩
  refine ⟨hlow, hhigh, ?_, top, hfold, rfl⟩
  rw [hlen]
  exact hcount

theorem promotedWithinInt32_of_verifiersAgree (hlow : 0 <= index) (hhigh : index < nChunks)
    (hgo : Pubcache.verifyChunkProof blake3 root nChunks index chunk path =
      Except.ok ()) (hagree : VerifiersAgree blake3 root nChunks index chunk path) :
    PromotedWithinInt32 nChunks.toNat index.toNat := by
  have hcur : index.toNat < nChunks.toNat := by omega
  have hgoLen := length_of_goVerifyChunkProof_ok hgo
  have hjsLen := length_of_verifyChunkProof_ok (hagree.mpr hgo)
  exact (pathLength_compare hcur).2.mp (hjsLen.symm.trans hgoLen)

/--
The two verifiers agree on a position of the tree, for every root, chunk and
path, exactly when no promoted ancestor of it lies beyond `2 ^ 31`; and a proof
that either of them accepts is accepted by both under the same condition only.
-/
theorem verifyChunkProof_agrees_iff (blake3 : Bytes -> Digest)
    (nChunks index : Int) (hlow : 0 <= index) (hhigh : index < nChunks)
    (hbound : nChunks <= 2 ^ 40) :
    ((forall root chunk path,
        VerifiersAgree blake3 root nChunks index chunk path) <->
      PromotedWithinInt32 nChunks.toNat index.toNat) ∧
    (forall root chunk path,
      verifyChunkProof blake3 (AddressLike.bytes root.toBytes) nChunks index chunk
          (path.map FixedBytes.toBytes) = Except.ok () ∨
        Pubcache.verifyChunkProof blake3 root nChunks index chunk path =
          Except.ok () ->
      (VerifiersAgree blake3 root nChunks index chunk path <->
        PromotedWithinInt32 nChunks.toNat index.toNat)) := by
  constructor
  · constructor
    · intro hall
      rcases exists_goVerifyChunkProof_ok blake3 [] hlow hhigh hbound with
        ⟨root, path, hgo⟩
      exact promotedWithinInt32_of_verifiersAgree hlow hhigh hgo
        (hall root [] path)
    · intro hint32 root chunk path
      exact verifiersAgree_of_promotedWithinInt32 hlow hhigh hint32
  · intro root chunk path hok
    constructor
    · intro hagree
      have hgo : Pubcache.verifyChunkProof blake3 root nChunks index chunk path =
          Except.ok () := by
        cases hok with
        | inl hjs => exact hagree.mp hjs
        | inr hgo => exact hgo
      exact promotedWithinInt32_of_verifiersAgree hlow hhigh hgo hagree
    · exact verifiersAgree_of_promotedWithinInt32 hlow hhigh

theorem verifyChunkProof_agrees_five_chunks :
    PromotedWithinInt32 5 4 ∧
      forall root chunk path, VerifiersAgree blake3OfAB root 5 4 chunk path := by
  have hint32 : PromotedWithinInt32 5 4 := promotedWithinInt32_of_lt (by decide)
  constructor
  · exact hint32
  · exact (verifyChunkProof_agrees_iff blake3OfAB 5 4 (by decide) (by decide)
      (by decide)).1.mpr hint32

/--
Whatever the hash, the verifiers disagree on chunk `2 ^ 31` of `2 ^ 31 + 1`: Go
promotes that node up to the root and takes one element, while the browser sees
a sibling at the leaf and asks for a second one.
-/
theorem not_verifiersAgree_beyond_int32 :
    Not (exists blake3 : Bytes -> Digest,
      forall (root : Addr) (nChunks index : Int) (chunk : Bytes)
        (path : List Digest),
        0 <= index -> index < nChunks -> nChunks <= 2 ^ 40 ->
        VerifiersAgree blake3 root nChunks index chunk path) := by
  intro hagree
  rcases hagree with ⟨blake3, hall⟩
  have hlow : (0 : Int) <= 2 ^ 31 := by decide
  have hhigh : (2 ^ 31 : Int) < 2 ^ 31 + 1 := by decide
  have hbound : (2 ^ 31 + 1 : Int) <= 2 ^ 40 := by decide
  rcases exists_goVerifyChunkProof_ok blake3 [] hlow hhigh hbound with
    ⟨root, path, hgo⟩
  have hint32 := promotedWithinInt32_of_verifiersAgree hlow hhigh hgo
    (hall root _ _ [] path hlow hhigh hbound)
  exact absurd (hint32 0 (by decide) (by decide)) (by decide)

end Agreement

end Client
end Ephor
