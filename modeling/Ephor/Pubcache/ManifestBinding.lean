import Ephor.Foundation.HashTree
import Ephor.Pubcache.ProofSoundness
import Ephor.Pubcache.Verify

/-!
# A manifest address fixes its chunk list

Two manifests accepted under one address carry chunk trees with one root.  Nothing in
a root tells the number of chunks, so the trees may differ in shape as well; but a leaf
and a node are hashed under different tags, and without collisions among the hashed
byte strings the two trees are the same.
-/

namespace Ephor
namespace Pubcache

open Foundation
open Foundation.SplitTree

/-- The byte string hashed for a leaf, or for a node over two digests. -/
def treePreimage : Addr ⊕ Digest × Digest -> Bytes
  | Sum.inl h => leafPreimage h
  | Sum.inr (left, right) => nodePreimage left right

/-- `merkleLeaf` and `merkleNode` in one. -/
def treeHash (blake3 : Bytes -> Digest) (x : Addr ⊕ Digest × Digest) : Digest :=
  blake3 (treePreimage x)

/-- The tree that `merkleRoot` builds: its algorithm, with trees for digests. -/
def chunkTree (chunks : List Addr) : Option (HashTree Addr) :=
  merkleRoot HashTree.leaf HashTree.node chunks

/-- The byte strings hashed by `merkleRoot` on this chunk list. -/
def rootPreimages (blake3 : Bytes -> Digest) (chunks : List Addr) : List Bytes :=
  (chunkTree chunks).elim [] fun t => (t.inputs (treeHash blake3)).map treePreimage

theorem leafPreimage_ne_nodePreimage (h : Addr) (left right : Digest) :
    leafPreimage h ≠ nodePreimage left right := by
  intro heq
  have hlen := congrArg List.length heq
  simp [leafPreimage, nodePreimage, FixedBytes.length_eq, addrLen, digestLen] at hlen

theorem treePreimage_injective : Function.Injective treePreimage := by
  intro x y h
  cases x with
  | inl a =>
      cases y with
      | inl b => exact congrArg Sum.inl (leafPreimage_inj h)
      | inr q => exact absurd h (leafPreimage_ne_nodePreimage a q.1 q.2)
  | inr p =>
      rcases p with ⟨left, right⟩
      cases y with
      | inl b => exact absurd h.symm (leafPreimage_ne_nodePreimage b left right)
      | inr q =>
          rcases q with ⟨left', right'⟩
          rcases nodePreimage_inj h with ⟨hleft, hright⟩
          rw [hleft, hright]

theorem apart_of_collisionFree {blake3 : Bytes -> Digest} {xs ys : List (Addr ⊕ Digest × Digest)}
    (hfree : CollisionFreeOn blake3 (xs.map treePreimage ++ ys.map treePreimage)) :
    HashTree.Apart (treeHash blake3) xs ys := by
  intro x hx y hy h
  exact treePreimage_injective
    (hfree _ (List.mem_append_left _ (List.mem_map_of_mem hx)) _
      (List.mem_append_right _ (List.mem_map_of_mem hy)) h)

theorem chunkTree_eq_treeOf {chunks : List Addr} (hne : chunks ≠ []) :
    chunkTree chunks = treeOf chunks :=
  merkleRoot_eq_mth HashTree.leaf hne

theorem manifestRoot_eq_digest (blake3 : Bytes -> Digest) {chunks : List Addr} (hne : chunks ≠ []) :
    manifestRoot blake3 chunks =
      (chunkTree chunks).map fun t => addrOfDigest (t.digest (treeHash blake3)) := by
  have hdigest := mth_digest (treeHash blake3) chunks
  have hmap : forall o : Option (HashTree Addr),
      (o.map fun t => addrOfDigest (t.digest (treeHash blake3))) =
        (o.map (HashTree.digest (treeHash blake3))).map addrOfDigest := by
    intro o
    cases o <;> rfl
  rw [manifestRoot, merkleRoot_eq_mth _ hne, chunkTree_eq_treeOf hne, hmap, hdigest]
  rfl

theorem exists_chunkTree {blake3 : Bytes -> Digest} {chunks : List Addr} {root : Addr}
    (hne : chunks ≠ []) (hroot : manifestRoot blake3 chunks = some root) :
    exists t : HashTree Addr, chunkTree chunks = some t ∧ t.fringe = chunks ∧
      addrOfDigest (t.digest (treeHash blake3)) = root ∧
      rootPreimages blake3 chunks = (t.inputs (treeHash blake3)).map treePreimage := by
  rw [manifestRoot_eq_digest blake3 hne] at hroot
  rcases Option.map_eq_some_iff.mp hroot with ⟨t, ht, hdigest⟩
  have htree := ht
  rw [chunkTree_eq_treeOf hne] at htree
  refine ⟨t, ht, fringe_treeOf htree, hdigest, ?_⟩
  rw [rootPreimages, ht]
  rfl

theorem chunks_eq_of_manifestRoot {blake3 : Bytes -> Digest} {chunks chunks' : List Addr}
    {root : Addr} (hne : chunks ≠ []) (hne' : chunks' ≠ [])
    (hfree : CollisionFreeOn blake3
      (rootPreimages blake3 chunks ++ rootPreimages blake3 chunks'))
    (hroot : manifestRoot blake3 chunks = some root)
    (hroot' : manifestRoot blake3 chunks' = some root) : chunks = chunks' := by
  rcases exists_chunkTree hne hroot with ⟨t, _, hfringe, hdigest, hpre⟩
  rcases exists_chunkTree hne' hroot' with ⟨t', _, hfringe', hdigest', hpre'⟩
  rw [hpre, hpre'] at hfree
  have htree := HashTree.digest_inj (apart_of_collisionFree hfree)
    (addrOfDigest_inj (hdigest.trans hdigest'.symm))
  rw [<- hfringe, <- hfringe', htree]

/--
Two bodies accepted under one address carry the same chunk list, and not the empty
one, provided no two byte strings hashed for the two trees collide.
-/
theorem manifest_fixes_chunks (blake3 : Bytes -> Digest) (want : Addr)
    (body body' : Bytes) (chunks chunks' : List Addr)
    (hfree : CollisionFreeOn blake3
      (rootPreimages blake3 chunks ++ rootPreimages blake3 chunks'))
    (h : verifiedManifestChunks blake3 want body = Except.ok chunks)
    (h' : verifiedManifestChunks blake3 want body' = Except.ok chunks') :
    chunks = chunks' ∧ 1 <= chunks.length := by
  rcases verifiedManifestChunks_spec h with ⟨hroot, hne, _⟩
  rcases verifiedManifestChunks_spec h' with ⟨hroot', hne', _⟩
  exact ⟨chunks_eq_of_manifestRoot hne hne' hfree hroot hroot', List.length_pos_of_ne_nil hne⟩

/-- The manifest of two chunks under two suites. -/
theorem manifest_fixes_chunksOfAB :
    verifiedManifestChunks blake3OfAB (rootOf (chunksOfAB.map (hashBytes blake3OfAB)))
        (sampleManifest (rootOf (chunksOfAB.map (hashBytes blake3OfAB)))
          (chunksOfAB.map (hashBytes blake3OfAB)) [0x02]) =
      Except.ok (chunksOfAB.map (hashBytes blake3OfAB)) ∧
    chunksOfAB.map (hashBytes blake3OfAB) = chunksOfAB.map (hashBytes blake3OfAB) ∧
      1 <= (chunksOfAB.map (hashBytes blake3OfAB)).length := by
  have hfirst : verifiedManifestChunks blake3OfAB
      (rootOf (chunksOfAB.map (hashBytes blake3OfAB)))
      (sampleManifest (rootOf (chunksOfAB.map (hashBytes blake3OfAB)))
        (chunksOfAB.map (hashBytes blake3OfAB)) [0x01]) =
      Except.ok (chunksOfAB.map (hashBytes blake3OfAB)) := by decide +kernel
  have hsecond : verifiedManifestChunks blake3OfAB
      (rootOf (chunksOfAB.map (hashBytes blake3OfAB)))
      (sampleManifest (rootOf (chunksOfAB.map (hashBytes blake3OfAB)))
        (chunksOfAB.map (hashBytes blake3OfAB)) [0x02]) =
      Except.ok (chunksOfAB.map (hashBytes blake3OfAB)) := by decide +kernel
  refine ⟨hsecond, manifest_fixes_chunks blake3OfAB _ _ _ _ _ ?_ hfirst hsecond⟩
  unfold CollisionFreeOn
  decide +kernel

end Pubcache
end Ephor
