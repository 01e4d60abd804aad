import Ephor.Pubcache.Merkle
import Mathlib.Data.Nat.Bitwise

/-!
# Chunk-tree range proofs

The inclusion proofs of `pubcache/proof.go`.  The prover climbs the levels of
the chunk tree and records the sibling at each level that has one; the verifier
climbs the same levels knowing only their widths, and consumes one path element
wherever a sibling exists.  A promoted last node contributes no element.
-/

namespace Ephor
namespace Pubcache

open Foundation
open Foundation.SplitTree

variable {cur : Nat}

def maxProofPath : Nat := 40

/-!
# The prover
-/

section Climb

variable {digest : Type} (node : digest -> digest -> digest)

/-- The sibling of position `cur`, when the level has one. -/
def siblings (level : List digest) (cur : Nat) : List digest :=
  match level[cur ^^^ 1]? with
  | some s => [s]
  | none => []

/-- The loop of `ChunkProof`: the audit path of position `cur`, bottom-up. -/
def auditPath (level : List digest) (cur : Nat) : List digest :=
  if 1 < level.length then
    siblings level cur ++ auditPath (reduceLevel node level) (cur / 2)
  else
    []
termination_by level.length
decreasing_by
  rw [reduceLevel, length_pairUp]
  omega

/-!
# The verifier
-/

/--
The loop of `VerifyChunkProof`.  It keeps the position and the width of the
level, the number of path elements used, the node so far, and the path elements
not yet used.  The sibling test and the error for a short path are parameters:
the Go and the browser verifier share the loop and differ in both.
-/
def foldPath {ε : Type} (tooShort : Nat -> ε) (hasSibling : Nat -> Nat -> Bool)
    (cur levelLen used : Nat) (acc : digest) (path : List digest) :
    Except ε (digest × List digest) :=
  if 1 < levelLen then
    if hasSibling cur levelLen then
      match path with
      | [] => Except.error (tooShort used)
      | s :: rest =>
          foldPath tooShort hasSibling (cur / 2) ((levelLen + 1) / 2) (used + 1)
            (if cur % 2 = 0 then node acc s else node s acc) rest
    else
      foldPath tooShort hasSibling (cur / 2) ((levelLen + 1) / 2) used acc path
  else
    Except.ok (acc, path)
termination_by levelLen

/-- The Go test `sib := cur ^ 1; sib < levelLen`. -/
def siblingInLevel (cur levelLen : Nat) : Bool :=
  decide (cur ^^^ 1 < levelLen)

def pathTooShort (used : Nat) : Error :=
  ⟨Sentinel.proofInvalid, s!"path too short at level {used}"⟩

end Climb

section Service

variable (blake3 : Bytes -> Digest)

def chunkProof (chunks : List Addr) (index : Int) : Except Error (List Digest) :=
  if chunks.length = 0 then
    Except.error ⟨Sentinel.proofRange, "empty chunk list"⟩
  else if index < 0 ∨ (chunks.length : Int) <= index then
    Except.error ⟨Sentinel.proofRange, s!"chunk {index} of {chunks.length}"⟩
  else
    Except.ok
      (auditPath (merkleNode blake3) (chunks.map (merkleLeaf blake3)) index.toNat)

/-- The checks of `VerifyChunkProof` after its loop. -/
def checkFold (root : Addr) (folded : Digest × List Digest) :
    Except Error Unit :=
  if folded.2 = [] then
    if addrOfDigest folded.1 = root then
      Except.ok ()
    else
      Except.error
        ⟨Sentinel.proofInvalid,
          "folds to " ++ (addrOfDigest folded.1).string ++ ", want root " ++
            root.string⟩
  else
    Except.error
      ⟨Sentinel.proofInvalid, s!"path has {folded.2.length} unused elements"⟩

def verifyChunkProof (root : Addr) (nChunks index : Int) (chunk : Bytes)
    (path : List Digest) : Except Error Unit :=
  if nChunks <= 0 then
    Except.error ⟨Sentinel.proofRange, "empty tree"⟩
  else if index < 0 ∨ nChunks <= index then
    Except.error ⟨Sentinel.proofRange, s!"chunk {index} of {nChunks}"⟩
  else if maxProofPath < path.length then
    Except.error
      ⟨Sentinel.proofInvalid,
        s!"path of {path.length} exceeds the {maxProofPath}-level bound"⟩
  else do
    let folded <-
      foldPath (merkleNode blake3) pathTooShort siblingInLevel index.toNat
        nChunks.toNat 0
        (merkleLeaf blake3 (hashBytes blake3 chunk)) path
    checkFold root folded

end Service

/-!
# Siblings and parents
-/

theorem xor_one_of_even (h : cur % 2 = 0) : cur ^^^ 1 = cur + 1 :=
  Nat.xor_one_of_even (Nat.even_iff.mpr h)

theorem xor_one_of_odd (h : cur % 2 = 1) : cur ^^^ 1 = cur - 1 :=
  Nat.xor_one_of_odd (Nat.odd_iff.mpr h)

section Climb

variable {digest : Type} (node : digest -> digest -> digest)

theorem length_reduceLevel (level : List digest) :
    (reduceLevel node level).length = (level.length + 1) / 2 :=
  length_pairUp node level

variable {level : List digest}

theorem sibling_pair {x s : digest} (hx : level[cur]? = some x)
    (hs : level[cur ^^^ 1]? = some s) :
    level[2 * (cur / 2)]? = some (if cur % 2 = 0 then x else s) ∧
      level[2 * (cur / 2) + 1]? = some (if cur % 2 = 0 then s else x) := by
  by_cases heven : cur % 2 = 0
  · rw [xor_one_of_even heven] at hs
    rw [if_pos heven, if_pos heven, show 2 * (cur / 2) = cur by omega]
    exact ⟨hx, hs⟩
  · rw [xor_one_of_odd (by omega)] at hs
    rw [if_neg heven, if_neg heven, show 2 * (cur / 2) + 1 = cur by omega,
      show 2 * (cur / 2) = cur - 1 by omega]
    exact ⟨hs, hx⟩

theorem reduceLevel_of_sibling {x s : digest} (hx : level[cur]? = some x)
    (hs : level[cur ^^^ 1]? = some s) :
    (reduceLevel node level)[cur / 2]? =
      some (if cur % 2 = 0 then node x s else node s x) := by
  rcases sibling_pair hx hs with ⟨hleft, hright⟩
  rw [reduceLevel, getElem?_pairUp_of_pair node hleft hright]
  split <;> rfl

theorem length_of_no_sibling (hcur : cur < level.length) (hs : level.length <= cur ^^^ 1) :
    cur % 2 = 0 ∧ level.length = cur + 1 := by
  by_cases heven : cur % 2 = 0
  · rw [xor_one_of_even heven] at hs
    exact ⟨heven, by omega⟩
  · rw [xor_one_of_odd (by omega)] at hs
    omega

theorem reduceLevel_of_no_sibling {x : digest} (hx : level[cur]? = some x)
    (hs : level.length <= cur ^^^ 1) : (reduceLevel node level)[cur / 2]? = some x := by
  have hcur : cur < level.length := (List.getElem?_eq_some_iff.mp hx).1
  rcases length_of_no_sibling hcur hs with ⟨heven, hlen⟩
  apply getElem?_pairUp_of_last
  · rw [show 2 * (cur / 2) = cur by omega]
    exact hx
  · omega

theorem levelRoot_reduceLevel (level : List digest) :
    levelRoot node (reduceLevel node level) = levelRoot node level := by
  rw [levelRoot_eq_mth, levelRoot_eq_mth, reduceLevel, mth_pairUp]

theorem levelRoot_of_length_one {x : digest} (hlen : Not (1 < level.length))
    (hx : level[cur]? = some x) : levelRoot node level = some x := by
  cases level with
  | nil => simp at hx
  | cons y rest =>
      cases rest with
      | nil =>
          have hcur : cur = 0 := by
            have hlt := (List.getElem?_eq_some_iff.mp hx).1
            simpa using hlt
          subst hcur
          have hyx : y = x := by simpa using hx
          rw [hyx, levelRoot]
      | cons z rest =>
          simp at hlen

theorem siblings_of_some {s : digest} (hs : level[cur ^^^ 1]? = some s) :
    siblings level cur = [s] := by
  unfold siblings
  rw [hs]

theorem siblings_of_none (hs : level.length <= cur ^^^ 1) : siblings level cur = [] := by
  unfold siblings
  rw [List.getElem?_eq_none hs]

end Climb

end Pubcache
end Ephor
