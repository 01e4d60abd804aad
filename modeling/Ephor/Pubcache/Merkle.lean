import Ephor.Foundation.SplitTree
import Ephor.Pubcache.Addr

/-!
# The chunk tree

The DS-tagged Merkle tree over chunk addresses (`pubcache/merkle.go`).  The code
builds it iteratively with an explicit stack of subtrees.  The tree functions
are written over an arbitrary leaf hash and an arbitrary node hash; the tagged
BLAKE3 hashes of the source are one instance.
-/

namespace Ephor
namespace Pubcache

open Foundation
open Foundation.SplitTree

/-!
# The explicit stack
-/

structure Frame (digest : Type) where
  root : digest
  count : Nat

section Tree

variable {addr digest : Type}
variable (leaf : addr -> digest) (node : digest -> digest -> digest)

/-- The inner loop: merge the new subtree while the top one is of equal size. -/
def mergeFrames : List (Frame digest) -> Frame digest -> List (Frame digest)
  | [], f => [f]
  | top :: stack, f =>
      if top.count = f.count then
        mergeFrames stack
          { root := node top.root f.root, count := top.count + f.count }
      else
        f :: top :: stack

/-- The outer loop over the chunk addresses; the top of the stack is the head. -/
def pushLeaves (hashes : List addr) : List (Frame digest) :=
  hashes.foldl
    (fun stack h => mergeFrames node stack { root := leaf h, count := 1 }) []

def foldFrames : Frame digest -> List (Frame digest) -> Frame digest
  | acc, [] => acc
  | acc, f :: stack =>
      foldFrames
        { root := node f.root acc.root, count := f.count + acc.count } stack

/-- The root left after the outer loop; indexing an empty stack panics. -/
def stackRoot : List (Frame digest) -> Option digest
  | [] => none
  | top :: stack => some (foldFrames node top stack).root

def merkleRoot (hashes : List addr) : Option digest :=
  match hashes with
  | [h] => some (leaf h)
  | hashes => stackRoot node (pushLeaves leaf node hashes)

/-- `reduceLevel`: pair nodes left to right, promote an unpaired last node. -/
def reduceLevel : List digest -> List digest :=
  pairUp node

/-!
# The stack holds a split tree

The invariant of the outer loop.  The leaves consumed so far are cut into
segments, one for each frame; each segment is a power of two long and its frame
holds its root, and a frame is at most half as large as any frame below it.
-/

inductive Covers : List (Frame digest) -> List digest -> Prop where
  | nil : Covers [] []
  | cons {f : Frame digest} {stack : List (Frame digest)}
      {leaves segment : List digest} {j : Nat} :
      f.count = 2 ^ j ->
      segment.length = f.count ->
      mth node segment = some f.root ->
      (forall g, g ∈ stack -> 2 * f.count <= g.count) ->
      Covers stack leaves ->
      Covers (f :: stack) (leaves ++ segment)

variable {node}

variable {stack : List (Frame digest)} {leaves : List digest}

theorem covers_mergeFrames (hcovers : Covers node stack leaves) :
    forall {f : Frame digest} {segment : List digest} {j : Nat},
      f.count = 2 ^ j ->
      segment.length = f.count ->
      mth node segment = some f.root ->
      (forall g, g ∈ stack -> f.count <= g.count) ->
      Covers node (mergeFrames node stack f) (leaves ++ segment) := by
  induction hcovers with
  | nil =>
      intro f segment j hpow hlen hroot _
      exact Covers.cons hpow hlen hroot
        (by
          intro g hg
          cases hg)
        Covers.nil
  | cons htopPow htopLen htopRoot htopLess hrest ih =>
      rename_i top stack leaves topSegment i
      intro f segment j hpow hlen hroot hle
      rw [mergeFrames]
      split
      · rename_i heq
        -- equal sizes: the two segments are the halves of a split
        have hji : 2 ^ i = 2 ^ j := by rw [<- htopPow, <- hpow, heq]
        rw [List.append_assoc]
        apply ih (j := i + 1)
        · change top.count + f.count = 2 ^ (i + 1)
          rw [<- heq, htopPow, Nat.pow_succ]
          omega
        · change (topSegment ++ segment).length = top.count + f.count
          rw [List.length_append, htopLen, hlen]
        · have hpos : 0 < 2 ^ i := Nat.two_pow_pos i
          rw [mth_append node (htopLen.trans htopPow) (by omega) (by omega),
            htopRoot, hroot]
          rfl
        · intro g hg
          change top.count + f.count <= g.count
          have hless := htopLess g hg
          omega
      · rename_i hne
        -- the new subtree is strictly smaller, hence at most half as large
        have hlt : 2 * f.count <= top.count := by
          have htop := hle top List.mem_cons_self
          have hstrict : 2 ^ j < 2 ^ i := by omega
          have hji : j + 1 <= i := (Nat.pow_lt_pow_iff_right (by omega)).mp hstrict
          have hmono : 2 ^ (j + 1) <= 2 ^ i :=
            Nat.pow_le_pow_right (by omega) hji
          rw [Nat.pow_succ] at hmono
          omega
        apply Covers.cons hpow hlen hroot
        · intro g hg
          rcases List.mem_cons.mp hg with rfl | hg
          · exact hlt
          · have hless := htopLess g hg
            omega
        · exact Covers.cons htopPow htopLen htopRoot htopLess hrest

theorem covers_count_pos (hcovers : Covers node stack leaves) :
    forall g, g ∈ stack -> 1 <= g.count := by
  induction hcovers with
  | nil =>
      intro g hg
      cases hg
  | cons hpow hlen hroot hless hrest ih =>
      rename_i f stack leaves segment j
      intro g hg
      rcases List.mem_cons.mp hg with rfl | hg
      · have hpos : 0 < 2 ^ j := Nat.two_pow_pos j
        omega
      · exact ih g hg

theorem covers_foldl {hashes : List addr} :
    forall {stack : List (Frame digest)} {leaves : List digest},
      Covers node stack leaves ->
      Covers node
        (hashes.foldl
          (fun stack h => mergeFrames node stack { root := leaf h, count := 1 })
          stack)
        (leaves ++ hashes.map leaf) := by
  induction hashes with
  | nil =>
      intro stack leaves hcovers
      simpa using hcovers
  | cons h rest ih =>
      intro stack leaves hcovers
      have hstep : Covers node
          (mergeFrames node stack { root := leaf h, count := 1 })
          (leaves ++ [leaf h]) := by
        apply covers_mergeFrames hcovers (j := 0)
        · rfl
        · rfl
        · exact mth_singleton node (leaf h)
        · exact covers_count_pos hcovers
      have hrest := ih hstep
      rw [List.append_assoc] at hrest
      exact hrest

theorem covers_pushLeaves (hashes : List addr) :
    Covers node (pushLeaves leaf node hashes) (hashes.map leaf) :=
  covers_foldl leaf Covers.nil

theorem mth_foldFrames (hcovers : Covers node stack leaves) :
    forall {acc : Frame digest} {segment : List digest},
      0 < segment.length ->
      mth node segment = some acc.root ->
      (forall g, g ∈ stack -> segment.length <= g.count) ->
      mth node (leaves ++ segment) = some (foldFrames node acc stack).root := by
  induction hcovers with
  | nil =>
      intro acc segment _ hroot _
      exact hroot
  | cons hpow hlen hrootTop hless hrest ih =>
      rename_i f stack leaves topSegment j
      intro acc segment hpos hroot hle
      have htop := hle f List.mem_cons_self
      rw [foldFrames, List.append_assoc]
      apply ih
      · rw [List.length_append]
        omega
      · rw [mth_append node (hlen.trans hpow) hpos (by omega), hrootTop, hroot]
        rfl
      · intro g hg
        have hhalf := hless g hg
        rw [List.length_append]
        omega

theorem covers_root (hcovers : Covers node stack leaves) (hne : leaves ≠ []) :
    stackRoot node stack = mth node leaves := by
  cases hcovers with
  | nil => exact absurd rfl hne
  | cons hpow hlen hroot hless hrest =>
      rename_i top stack leaves segment j
      have hpos : 0 < 2 ^ j := Nat.two_pow_pos j
      symm
      apply mth_foldFrames hrest
      · omega
      · exact hroot
      · intro g hg
        have hhalf := hless g hg
        omega

/-- The explicit stack computes the RFC 6962 tree. -/
theorem merkleRoot_eq_mth {hashes : List addr} (hne : hashes ≠ []) :
    merkleRoot leaf node hashes = mth node (hashes.map leaf) := by
  unfold merkleRoot
  split
  · rw [List.map_singleton, mth_singleton]
  · apply covers_root (covers_pushLeaves leaf hashes)
    simpa using hne

/--
The three constructions of the tree agree: the explicit stack, the split rule of
RFC 6962, and repeated level reduction with promotion.
-/
theorem merkleRoot_eq_mth_eq_levelRoot (leaf : addr -> digest)
    (node : digest -> digest -> digest) (hashes : List addr)
    (hne : hashes ≠ []) :
    exists root,
      merkleRoot leaf node hashes = some root ∧
      mth node (hashes.map leaf) = some root ∧
      levelRoot node (hashes.map leaf) = some root := by
  have hmap : hashes.map leaf ≠ [] := by simpa using hne
  rcases Option.isSome_iff_exists.mp (mth_isSome node hmap) with ⟨root, hroot⟩
  refine ⟨root, ?_, hroot, ?_⟩
  · rw [merkleRoot_eq_mth leaf hne, hroot]
  · rw [levelRoot_eq_mth, hroot]

theorem merkleRoot_three_leaves :
    exists root,
      merkleRoot id (fun a b => "(" ++ a ++ b ++ ")") ["a", "b", "c"] = some root ∧
      mth (fun a b => "(" ++ a ++ b ++ ")") (["a", "b", "c"].map id) = some root ∧
      levelRoot (fun a b => "(" ++ a ++ b ++ ")") (["a", "b", "c"].map id) =
        some root :=
  merkleRoot_eq_mth_eq_levelRoot id (fun a b => "(" ++ a ++ b ++ ")")
    ["a", "b", "c"] (by decide)

end Tree

/-!
# The tagged hashes

Leaf and node hashes are BLAKE3 over a domain-separation tag, a marker byte, and
the address or the two child digests.
-/

def asciiBytes (s : String) : Bytes :=
  s.toList.map fun c => UInt8.ofNat c.toNat

def dsManifest : Bytes :=
  asciiBytes "DMTAP-PUB-v0/manifest" ++ [0x00]

def leafPreimage (h : Addr) : Bytes :=
  dsManifest ++ [0x00] ++ h.toBytes

def nodePreimage (left right : Digest) : Bytes :=
  dsManifest ++ [0x01] ++ left.toBytes ++ right.toBytes

def merkleLeaf (blake3 : Bytes -> Digest) (h : Addr) : Digest :=
  blake3 (leafPreimage h)

def merkleNode (blake3 : Bytes -> Digest) (left right : Digest) : Digest :=
  blake3 (nodePreimage left right)

/-- `ManifestRoot`: the content address of a manifest with these chunks. -/
def manifestRoot (blake3 : Bytes -> Digest) (chunks : List Addr) : Option Addr :=
  (merkleRoot (merkleLeaf blake3) (merkleNode blake3) chunks).map addrOfDigest

def digestOfNat (n : Nat) : Digest where
  toBytes := (List.range digestLen).map fun i =>
    UInt8.ofNat (n / 256 ^ (digestLen - 1 - i))
  length_eq := by
    rw [List.length_map, List.length_range]

theorem leafPreimage_inj {h k : Addr} (heq : leafPreimage h = leafPreimage k) : h = k :=
  FixedBytes.ext_toBytes (List.append_cancel_left heq)

theorem nodePreimage_inj {a b c d : Digest}
    (heq : nodePreimage a b = nodePreimage c d) : a = c ∧ b = d := by
  unfold nodePreimage at heq
  rw [List.append_assoc, List.append_assoc _ c.toBytes] at heq
  rcases FixedBytes.append_toBytes_inj (List.append_cancel_left heq) with
    ⟨hac, hbd⟩
  exact ⟨hac, FixedBytes.ext_toBytes hbd⟩

theorem manifestRoot_eq_levelRoot (blake3 : Bytes -> Digest)
    {chunks : List Addr} (hne : chunks ≠ []) :
    manifestRoot blake3 chunks =
      (levelRoot (merkleNode blake3) (chunks.map (merkleLeaf blake3))).map
        addrOfDigest := by
  rw [manifestRoot, merkleRoot_eq_mth _ hne, levelRoot_eq_mth]

end Pubcache
end Ephor
