import Ephor.Client.ChunkProof
import Ephor.Pubcache.TreeWidth

/-!
# A wrong chunk count

The module comment of `client/src/chunkProof.ts` says of `nChunks` that a wrong value
leads to a different fold, and so to a rejection.  The fold depends on the count only
through the turns of the position.  Where a position of a tree of `nChunks` leaves has
the turns of a position of the real tree, the honest proof of the latter passes for the
former.
-/

namespace Ephor
namespace Client

open Foundation
open Pubcache

section Count

variable (blake3 : Bytes -> Digest)

/-- The byte strings hashed while `verifyChunkProof` climbs to the root. -/
def climbPreimages (nChunks index : Nat) (chunk : Bytes) (path : List Digest) : List Bytes :=
  (Sum.inl (hashBytes blake3 chunk) ::
    HashTree.climbInputs (treeHash blake3) (treeHash blake3 (Sum.inl (hashBytes blake3 chunk)))
      ((turns siblingInLevel index nChunks).zip path).reverse).map treePreimage

/-- Under the root of the list, nothing verifies with this count. -/
def RejectsCount (chunks : List Addr) (nChunks : Int) : Prop :=
  forall (root : AddressLike) (rootAddr : Addr),
    manifestRoot blake3 chunks = some rootAddr -> toAddr root = Except.ok rootAddr ->
    forall (index : Int) (chunk : Bytes) (path : List Bytes),
      (forall digests, path = digests.map FixedBytes.toBytes ->
        CollisionFreeOn blake3 (rootPreimages blake3 chunks ++
          climbPreimages blake3 nChunks.toNat index.toNat chunk digests)) ->
      verifyChunkProof blake3 root nChunks index chunk path ≠ Except.ok ()

/--
A position of a tree of `nChunks` leaves, as the browser climbs it, has the turns of a
position of the list that holds the address of some chunk.
-/
def PositionShared (chunks : List Addr) (nChunks : Nat) : Prop :=
  exists index cur chunk, index < nChunks ∧ chunks[cur]? = some (hashBytes blake3 chunk) ∧
    turns siblingInLevel index nChunks = turns Pubcache.siblingInLevel cur chunks.length ∧
    (turns siblingInLevel index nChunks).length <= maxProofPath

/-!
# What is accepted
-/

variable {blake3}

theorem map_toBytes_of_mapM {path : List Bytes} {digests : List Digest}
    (h : path.mapM pathElement = Except.ok digests) : path = digests.map FixedBytes.toBytes := by
  induction path generalizing digests with
  | nil =>
      cases h
      rfl
  | cons s rest ih =>
      rw [List.mapM_cons] at h
      rcases bind_eq_ok.mp h with ⟨d, hd, htail⟩
      rcases bind_eq_ok.mp htail with ⟨ds, hds, hcons⟩
      injection hcons with hcons
      unfold pathElement at hd
      split at hd
      · injection hd with hd
        rw [<- hcons, <- hd, List.map_cons, <- ih hds]
      · cases hd

theorem map_toBytes_inj {ds ds' : List Digest}
    (h : ds.map FixedBytes.toBytes = ds'.map FixedBytes.toBytes) : ds = ds' :=
  List.map_injective_iff.mpr (fun _ _ heq => FixedBytes.ext_toBytes heq) h

theorem exists_digests_of_ok {root : AddressLike} {nChunks index : Int} {chunk : Bytes}
    {path : List Bytes} (h : verifyChunkProof blake3 root nChunks index chunk path = Except.ok ()) :
    exists digests : List Digest, path = digests.map FixedBytes.toBytes := by
  unfold verifyChunkProof at h
  rcases bind_eq_ok.mp h with ⟨rootAddr, _, h⟩
  split at h
  · cases h
  · split at h
    · cases h
    · split at h
      · cases h
      · rcases bind_eq_ok.mp h with ⟨digests, hdigests, _⟩
        exact ⟨digests, map_toBytes_of_mapM hdigests⟩

theorem verifyChunkProof_root {root : AddressLike} {rootAddr : Addr}
    (hroot : toAddr root = Except.ok rootAddr) (htag : rootAddr.Tagged)
    (nChunks index : Int) (chunk : Bytes) (path : List Bytes) :
    verifyChunkProof blake3 root nChunks index chunk path =
      verifyChunkProof blake3 (AddressLike.bytes rootAddr.toBytes) nChunks index chunk path := by
  unfold verifyChunkProof
  rw [hroot, toAddr_of_head htag]

theorem verifyChunkProof_of_opening {t : HashTree Addr} {rootAddr : Addr} {nChunks index : Int}
    {chunk : Bytes} {path : List Digest}
    (hdigest : addrOfDigest (t.digest (treeHash blake3)) = rootAddr)
    (hlow : 0 <= index) (hhigh : index < nChunks) (hlen : path.length <= maxProofPath)
    (hopen : t.opening (treeHash blake3) (turns siblingInLevel index.toNat nChunks.toNat).reverse =
      some (hashBytes blake3 chunk, path.reverse)) :
    verifyChunkProof blake3 (AddressLike.bytes rootAddr.toBytes) nChunks index chunk
        (path.map FixedBytes.toBytes) = Except.ok () ∧
      forall x, x ∈ climbPreimages blake3 nChunks.toNat index.toNat chunk path ->
        x ∈ (t.inputs (treeHash blake3)).map treePreimage := by
  rcases HashTree.climb_of_opening hopen with ⟨hcount, hclimb, hinputs⟩
  rw [List.length_reverse, List.length_reverse] at hcount
  have hzip : ((turns siblingInLevel index.toNat nChunks.toNat).zip path).reverse =
      (turns siblingInLevel index.toNat nChunks.toNat).reverse.zip path.reverse :=
    List.reverse_zipWith hcount.symm
  constructor
  · refine verifyChunkProof_eq_ok_iff.mpr ⟨hlow, hhigh, hlen, _, ?_, hdigest⟩
    refine (foldPath_eq_ok_iff (treeHash blake3) siblingInLevel _ _ _ _ _ path).mpr ⟨hcount, ?_⟩
    rw [hzip]
    exact hclimb
  · intro x hx
    rcases List.mem_map.mp hx with ⟨y, hy, rfl⟩
    rw [hzip] at hy
    exact List.mem_map_of_mem (hinputs y hy)

theorem opening_of_verifyChunkProof {t : HashTree Addr} {rootAddr : Addr}
    {nChunks index : Int} {chunk : Bytes} {path : List Digest}
    (hdigest : addrOfDigest (t.digest (treeHash blake3)) = rootAddr)
    (hfree : CollisionFreeOn blake3 ((t.inputs (treeHash blake3)).map treePreimage ++
      climbPreimages blake3 nChunks.toNat index.toNat chunk path))
    (hok : verifyChunkProof blake3 (AddressLike.bytes rootAddr.toBytes) nChunks index chunk
      (path.map FixedBytes.toBytes) = Except.ok ()) :
    0 <= index ∧ index < nChunks ∧ path.length <= maxProofPath ∧
      path.length = (turns siblingInLevel index.toNat nChunks.toNat).length ∧
      t.opening (treeHash blake3) (turns siblingInLevel index.toNat nChunks.toNat).reverse =
        some (hashBytes blake3 chunk, path.reverse) := by
  rcases verifyChunkProof_eq_ok_iff.mp hok with ⟨hlow, hhigh, hlen, top, hfold, haddr⟩
  rcases (foldPath_eq_ok_iff (treeHash blake3) siblingInLevel _ _ _ _ _ path).mp hfold with
    ⟨hcount, hclimb⟩
  rw [<- addrOfDigest_inj (hdigest.trans haddr.symm)] at hclimb
  have hopen := HashTree.opening_of_climb (apart_of_collisionFree hfree) hclimb
  rw [List.map_reverse, List.map_reverse, List.map_fst_zip (Nat.le_of_eq hcount.symm),
    List.map_snd_zip (Nat.le_of_eq hcount)] at hopen
  exact ⟨hlow, hhigh, hlen, hcount, hopen⟩

theorem rejectsCount_iff_shared (blake3 : Bytes -> Digest) {chunks : List Addr}
    (nChunks : Int) (hne : chunks ≠ [])
    (hfree : CollisionFreeOn blake3 (rootPreimages blake3 chunks)) :
    RejectsCount blake3 chunks nChunks <-> Not (PositionShared blake3 chunks nChunks.toNat) := by
  have hsome : exists rootAddr, manifestRoot blake3 chunks = some rootAddr := by
    rcases merkleRoot_eq_mth_eq_levelRoot (merkleLeaf blake3) (merkleNode blake3) chunks hne with
      ⟨root, hroot, _⟩
    exact ⟨addrOfDigest root, by rw [manifestRoot, hroot]; rfl⟩
  rcases hsome with ⟨rootAddr, hroot⟩
  rcases exists_chunkTree hne hroot with ⟨t, ht, _, hdigest, hpre⟩
  rw [chunkTree_eq_treeOf hne] at ht
  have htag := tagged_of_manifestRoot hroot
  constructor
  · intro hrejects hshared
    rcases hshared with ⟨index, cur, chunk, hindex, hcur, hturns, hlen⟩
    have hleaf := (leafAt_treeOf_iff ht).mpr ⟨cur, hcur, rfl⟩
    rw [<- hturns, <- HashTree.opening_leafAt (treeHash blake3)] at hleaf
    rcases Option.map_eq_some_iff.mp hleaf with ⟨⟨a, siblings⟩, hopen, ha⟩
    rw [show a = hashBytes blake3 chunk from ha, <- siblings.reverse_reverse] at hopen
    have hcount := (HashTree.climb_of_opening hopen).1
    simp only [List.length_reverse] at hcount
    have hpath : siblings.reverse.length <= maxProofPath := by
      rw [List.length_reverse, hcount]
      exact hlen
    have hhigh : (index : Int) < nChunks := by omega
    rcases verifyChunkProof_of_opening hdigest (Int.natCast_nonneg index) hhigh hpath
      hopen with ⟨hok, hinputs⟩
    refine hrejects _ rootAddr hroot (toAddr_of_head htag) index chunk _ ?_ hok
    intro digests hdigests x hx y hy
    rw [<- map_toBytes_inj hdigests, hpre] at hx hy
    rw [hpre] at hfree
    refine hfree x ?_ y ?_
    · exact (List.mem_append.mp hx).elim id (hinputs x)
    · exact (List.mem_append.mp hy).elim id (hinputs y)
  · intro hshared root rootAddr' hroot' haddr index chunk path hclimb hok
    rw [hroot] at hroot'
    injection hroot' with hsame
    rw [<- hsame] at haddr
    rcases exists_digests_of_ok hok with ⟨digests, rfl⟩
    rw [verifyChunkProof_root haddr htag] at hok
    have hfree' := hclimb digests rfl
    rw [hpre] at hfree'
    rcases opening_of_verifyChunkProof hdigest hfree' hok with
      ⟨hlow, hhigh, hlen, hcount, hopen⟩
    have hleaf : t.leafAt (turns siblingInLevel index.toNat nChunks.toNat).reverse =
        some (hashBytes blake3 chunk) := by
      rw [<- HashTree.opening_leafAt (treeHash blake3), hopen]
      rfl
    rcases (leafAt_treeOf_iff ht).mp hleaf with ⟨cur, hcur, hturns⟩
    exact hshared ⟨index.toNat, cur, chunk, by omega, hcur, List.reverse_injective hturns,
      by omega⟩

/-!
# Counts within 31 bits
-/

theorem length_turns (hasSibling : Nat -> Nat -> Bool) (cur levelLen : Nat) :
    (turns hasSibling cur levelLen).length = pathLength hasSibling cur levelLen := by
  fun_induction turns hasSibling cur levelLen with
  | case1 cur levelLen hlen hsib ih =>
      rw [pathLength, if_pos hlen, hsib, List.length_cons, ih, Bool.toNat_true, Nat.add_comm]
  | case2 cur levelLen hlen hsib ih =>
      rw [pathLength, if_pos hlen, Bool.eq_false_of_not_eq_true hsib, ih, Bool.toNat_false,
        Nat.zero_add]
  | case3 cur levelLen hlen =>
      rw [pathLength, if_neg hlen]
      rfl

theorem turns_agree {index nChunks : Nat} (h : index < nChunks)
    (hint32 : PromotedWithinInt32 nChunks index) :
    turns siblingInLevel index nChunks = turns Pubcache.siblingInLevel index nChunks := by
  fun_induction turns siblingInLevel index nChunks with
  | case1 cur levelLen hlen hsib ih =>
      rcases (promotedWithinInt32_step (by omega)).mp hint32 with ⟨htests, hup⟩
      rw [ih (by omega) hup, <- turns_of_sibling hlen]
      rw [<- (testsAgreeAt_iff h).mp htests]
      exact hsib
  | case2 cur levelLen hlen hsib ih =>
      rcases (promotedWithinInt32_step (by omega)).mp hint32 with ⟨htests, hup⟩
      rw [ih (by omega) hup, <- turns_of_no_sibling hlen]
      rw [<- (testsAgreeAt_iff h).mp htests]
      exact Bool.eq_false_of_not_eq_true hsib
  | case3 cur levelLen hlen => rw [turns_of_le_one hlen]

theorem positionShared_iff_widthsMeet {chunks : List Addr} {nChunks : Nat} (hne : chunks ≠ [])
    (hbodies : forall a, a ∈ chunks -> exists chunk, hashBytes blake3 chunk = a)
    (hint32 : nChunks <= 2 ^ 31) :
    PositionShared blake3 chunks nChunks <-> widthsMeet nChunks chunks.length = true := by
  have hpos := List.length_pos_of_ne_nil hne
  have hagree : forall index, index < nChunks ->
      turns siblingInLevel index nChunks = turns Pubcache.siblingInLevel index nChunks :=
    fun index hindex => turns_agree hindex (promotedWithinInt32_of_lt (by omega))
  by_cases hzero : nChunks = 0
  · rw [hzero, widthsMeet, if_neg (by omega), beq_iff_eq]
    constructor
    · intro h
      rcases h with ⟨index, _, _, hindex, _⟩
      omega
    · intro h
      omega
  · rw [<- exists_walks_iff (by omega) hpos]
    constructor
    · intro h
      rcases h with ⟨index, cur, chunk, hindex, hcur, hturns, _⟩
      refine ⟨_, ⟨index, hindex, rfl⟩, ⟨cur, (List.getElem?_eq_some_iff.mp hcur).1, ?_⟩⟩
      rw [<- hagree index hindex, hturns]
    · intro h
      rcases h with ⟨path, ⟨index, hindex, hpath⟩, ⟨cur, hcur, hpath'⟩⟩
      have hget : chunks[cur]? = some (chunks[cur]) := List.getElem?_eq_getElem hcur
      rcases hbodies _ (List.mem_of_getElem? hget) with ⟨chunk, hchunk⟩
      refine ⟨index, cur, chunk, hindex, by rw [hchunk, hget], ?_, ?_⟩
      · rw [hagree index hindex]
        exact List.reverse_injective (hpath.symm.trans hpath')
      · rw [length_turns]
        have hclog : Nat.clog 2 nChunks <= 31 := Nat.clog_le_of_le_pow hint32
        exact le_trans (pathLength_le_clog _ _ _) (le_trans hclog (by decide))

/--
Under the root of a list nothing verifies with a given count, exactly when no position
of a tree of that many leaves has the turns of a position of the list that holds the
address of a chunk.  For counts within 31 bits and a list of chunks, this says that
the widths of the left parts of the two trees never meet.
-/
theorem rejectsCount_iff (blake3 : Bytes -> Digest) (chunks : List Addr) (nChunks : Int)
    (hne : chunks ≠ []) (hfree : CollisionFreeOn blake3 (rootPreimages blake3 chunks)) :
    (RejectsCount blake3 chunks nChunks <->
      Not (PositionShared blake3 chunks nChunks.toNat)) ∧
    (nChunks <= 2 ^ 31 ->
      (forall a, a ∈ chunks -> exists chunk, hashBytes blake3 chunk = a) ->
      (RejectsCount blake3 chunks nChunks <->
        widthsMeet nChunks.toNat chunks.length = false)) := by
  have hshared := rejectsCount_iff_shared blake3 nChunks hne hfree
  refine ⟨hshared, fun hint32 hbodies => ?_⟩
  rw [hshared, positionShared_iff_widthsMeet hne hbodies (by omega), Bool.not_eq_true]

theorem chunksOfAB_addressed :
    forall a, a ∈ chunksOfAB.map (hashBytes blake3OfAB) ->
      exists chunk, hashBytes blake3OfAB chunk = a := by
  intro a ha
  rcases List.mem_map.mp ha with ⟨chunk, _, hchunk⟩
  exact ⟨chunk, hchunk⟩

/-- Of two chunks, a count of four is refused for every proof, and a count of three is not. -/
theorem rejectsCount_four :
    RejectsCount blake3OfAB (chunksOfAB.map (hashBytes blake3OfAB)) 4 ∧
      Not (RejectsCount blake3OfAB (chunksOfAB.map (hashBytes blake3OfAB)) 3) := by
  have hfree : CollisionFreeOn blake3OfAB
      (rootPreimages blake3OfAB (chunksOfAB.map (hashBytes blake3OfAB))) := by
    unfold CollisionFreeOn
    decide +kernel
  constructor
  · exact ((rejectsCount_iff blake3OfAB _ 4 (by decide) hfree).2 (by decide)
      chunksOfAB_addressed).mpr (by decide +kernel)
  · intro h
    have hmeet := ((rejectsCount_iff blake3OfAB _ 3 (by decide) hfree).2 (by decide)
      chunksOfAB_addressed).mp h
    exact absurd hmeet (by decide +kernel)

theorem chunk_two_of_three_accepted :
    verifyChunkProof blake3OfAB
        (AddressLike.bytes (rootOf (chunksOfAB.map (hashBytes blake3OfAB))).toBytes) 3 2
        (asciiBytes "b")
        [(merkleLeaf blake3OfAB (hashBytes blake3OfAB (asciiBytes "a"))).toBytes] =
      Except.ok () ∧
    Not (RejectsCount blake3OfAB (chunksOfAB.map (hashBytes blake3OfAB)) 3) := by
  have hok : verifyChunkProof blake3OfAB
      (AddressLike.bytes (rootOf (chunksOfAB.map (hashBytes blake3OfAB))).toBytes) 3 2
      (asciiBytes "b")
      [(merkleLeaf blake3OfAB (hashBytes blake3OfAB (asciiBytes "a"))).toBytes] =
      Except.ok () := by decide +kernel
  refine ⟨hok, fun hrejects => ?_⟩
  refine hrejects _ (rootOf (chunksOfAB.map (hashBytes blake3OfAB))) (by decide +kernel)
    (toAddr_of_head (by decide +kernel)) 2 _ _ ?_ hok
  intro digests hdigests
  have hsame : [merkleLeaf blake3OfAB (hashBytes blake3OfAB (asciiBytes "a"))] = digests :=
    map_toBytes_inj hdigests
  rw [<- hsame]
  unfold CollisionFreeOn
  decide +kernel

end Count

end Client
end Ephor
