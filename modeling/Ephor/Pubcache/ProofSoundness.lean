import Ephor.Pubcache.Proof

/-!
# Soundness and completeness of range proofs

Completeness needs nothing of the hash: prover and verifier decide level by
level, from the same widths, whether a sibling exists.  Soundness peels the tree
from the root: the fold's last combination and the root of the tree are the same
hash value, so without collisions the two children agree, and so on down to the
leaf.  Only collisions among the inputs that the two computations really hash
matter, and those inputs are listed by the trace functions below.
-/

namespace Ephor
namespace Pubcache

open Foundation
open Foundation.SplitTree

/-!
# The pairs that are hashed
-/

section Climb

variable {digest : Type} (node : digest -> digest -> digest)

def levelPairs : List digest -> List (digest × digest)
  | [] => []
  | [_] => []
  | x :: y :: rest => (x, y) :: levelPairs rest

/-- The pairs combined while `ChunkProof` reduces its levels to the root. -/
def treePairs (level : List digest) : List (digest × digest) :=
  if 1 < level.length then
    levelPairs level ++ treePairs (reduceLevel node level)
  else
    []
termination_by level.length
decreasing_by
  rw [length_reduceLevel]
  omega

def orderedPair (cur : Nat) (acc s : digest) : digest × digest :=
  if cur % 2 = 0 then (acc, s) else (s, acc)

/-- The pairs combined by the loop of `VerifyChunkProof`. -/
def foldPairs (cur levelLen : Nat) (acc : digest) (path : List digest) :
    List (digest × digest) :=
  if 1 < levelLen then
    if siblingInLevel cur levelLen then
      match path with
      | [] => []
      | s :: rest =>
          orderedPair cur acc s ::
            foldPairs (cur / 2) ((levelLen + 1) / 2)
              (if cur % 2 = 0 then node acc s else node s acc) rest
    else
      foldPairs (cur / 2) ((levelLen + 1) / 2) acc path
  else
    []
termination_by levelLen

variable {node} {ε : Type} {tooShort : Nat -> ε}

variable {level : List digest} {cur : Nat}

theorem mem_levelPairs {i : Nat} {x y : digest} (hx : level[2 * i]? = some x)
    (hy : level[2 * i + 1]? = some y) : (x, y) ∈ levelPairs level := by
  induction level using levelPairs.induct generalizing i with
  | case1 => cases hx
  | case2 z =>
      simp at hy
  | case3 a b rest ih =>
      rw [levelPairs]
      cases i with
      | zero =>
          have ha : a = x := by simpa using hx
          have hb : b = y := by simpa using hy
          rw [ha, hb]
          exact List.mem_cons_self
      | succ i =>
          apply List.mem_cons_of_mem
          apply ih
          · simpa [show 2 * (i + 1) = 2 * i + 1 + 1 by omega] using hx
          · simpa [show 2 * (i + 1) + 1 = 2 * i + 1 + 1 + 1 by omega] using hy

theorem orderedPair_mem_levelPairs {x s : digest} (hx : level[cur]? = some x)
    (hs : level[cur ^^^ 1]? = some s) : orderedPair cur x s ∈ levelPairs level := by
  rcases sibling_pair hx hs with ⟨hleft, hright⟩
  have hmem := mem_levelPairs hleft hright
  unfold orderedPair
  split
  · rename_i heven
    rw [if_pos heven, if_pos heven] at hmem
    exact hmem
  · rename_i hodd
    rw [if_neg hodd, if_neg hodd] at hmem
    exact hmem

variable (node) in
theorem node_orderedPair (cur : Nat) (x s : digest) :
    node (orderedPair cur x s).1 (orderedPair cur x s).2 =
      if cur % 2 = 0 then node x s else node s x := by
  unfold orderedPair
  split <;> rfl

theorem orderedPair_inj {x y s t : digest} (h : orderedPair cur x s = orderedPair cur y t) :
    x = y ∧ s = t := by
  unfold orderedPair at h
  split at h
  · injection h with hxy hst
    exact ⟨hxy, hst⟩
  · injection h with hst hxy
    exact ⟨hxy, hst⟩

/-!
# One step of the verifier
-/

theorem foldPath_of_sibling {levelLen : Nat} (used : Nat) (acc s : digest) (rest : List digest)
    (hlen : 1 < levelLen) (hs : cur ^^^ 1 < levelLen) :
    foldPath node tooShort siblingInLevel cur levelLen used acc (s :: rest) =
      foldPath node tooShort siblingInLevel (cur / 2) ((levelLen + 1) / 2) (used + 1)
        (if cur % 2 = 0 then node acc s else node s acc) rest := by
  rw [foldPath, if_pos hlen, siblingInLevel, if_pos (decide_eq_true hs)]

theorem foldPath_of_no_sibling {levelLen : Nat} (used : Nat) (acc : digest) (path : List digest)
    (hlen : 1 < levelLen) (hs : levelLen <= cur ^^^ 1) :
    foldPath node tooShort siblingInLevel cur levelLen used acc path =
      foldPath node tooShort siblingInLevel (cur / 2) ((levelLen + 1) / 2) used acc
        path := by
  have hdec : decide (cur ^^^ 1 < levelLen) = false :=
    decide_eq_false (Nat.not_lt.mpr hs)
  rw [foldPath.eq_def, if_pos hlen, siblingInLevel, hdec, if_neg Bool.false_ne_true]

/-!
# Completeness of the fold
-/

variable (node) in
theorem foldPath_auditPath (used : Nat) {acc : digest} (rest : List digest)
    (hacc : level[cur]? = some acc) :
    exists root,
      levelRoot node level = some root ∧
      foldPath node tooShort siblingInLevel cur level.length used acc
        (auditPath node level cur ++ rest) = Except.ok (root, rest) := by
  induction level, cur using auditPath.induct node generalizing used acc with
  | case1 level cur hlen ih =>
      rw [auditPath, if_pos hlen, <- levelRoot_reduceLevel]
      by_cases hs : cur ^^^ 1 < level.length
      · have hsib : level[cur ^^^ 1]? = some (level[cur ^^^ 1]) :=
          List.getElem?_eq_getElem hs
        rw [siblings_of_some hsib, List.append_assoc, List.singleton_append,
          foldPath_of_sibling used _ _ _ hlen hs, <- length_reduceLevel node]
        exact ih (used + 1) (reduceLevel_of_sibling node hacc hsib)
      · have hnone : level.length <= cur ^^^ 1 := Nat.not_lt.mp hs
        rw [siblings_of_none hnone, List.nil_append,
          foldPath_of_no_sibling used _ _ hlen hnone, <- length_reduceLevel node]
        exact ih used (reduceLevel_of_no_sibling node hacc hnone)
  | case2 level cur hlen =>
      refine ⟨acc, levelRoot_of_length_one node hlen hacc, ?_⟩
      rw [auditPath, if_neg hlen, foldPath.eq_def, if_neg hlen, List.nil_append]

variable (node) in
theorem length_auditPath_le (level : List digest) (cur : Nat) :
    (auditPath node level cur).length <= Nat.clog 2 level.length := by
  induction level, cur using auditPath.induct node with
  | case1 level cur hlen ih =>
      have hsib : (siblings level cur).length <= 1 := by
        unfold siblings
        split
        · exact Nat.le_refl 1
        · exact Nat.zero_le 1
      rw [length_reduceLevel] at ih
      rw [auditPath, if_pos hlen, List.length_append,
        Nat.clog_of_two_le (by omega) (by omega)]
      have hhalf : (level.length + 2 - 1) / 2 = (level.length + 1) / 2 := by
        omega
      rw [hhalf]
      omega
  | case2 level cur hlen =>
      rw [auditPath, if_neg hlen]
      exact Nat.zero_le _

/-!
# Soundness of the fold
-/

/--
A fold that reaches the root of the tree started from the tree's own node and
used the tree's own siblings, provided no two distinct pairs hashed on the way
collide.  The induction climbs to the root; the equalities come back down.
-/
theorem foldPath_sound {used : Nat} {acc : digest} {path rest : List digest} {root : digest}
    (hcur : cur < level.length)
    (hinj : forall p, p ∈ treePairs node level ->
      forall q, q ∈ foldPairs node cur level.length acc path ->
        node p.1 p.2 = node q.1 q.2 -> p = q) (hroot : levelRoot node level = some root)
    (hfold : foldPath node tooShort siblingInLevel cur level.length used acc path =
      Except.ok (root, rest)) :
    level[cur]? = some acc ∧ path = auditPath node level cur ++ rest := by
  induction level, cur using auditPath.induct node
    generalizing used acc path with
  | case1 level cur hlen ih =>
      have hx : level[cur]? = some (level[cur]) := List.getElem?_eq_getElem hcur
      have hcur' : cur / 2 < (reduceLevel node level).length := by
        rw [length_reduceLevel]
        omega
      have hroot' : levelRoot node (reduceLevel node level) = some root := by
        rw [levelRoot_reduceLevel, hroot]
      rw [treePairs, if_pos hlen, foldPairs.eq_def, if_pos hlen] at hinj
      rw [auditPath, if_pos hlen]
      by_cases hs : cur ^^^ 1 < level.length
      · have hsib : level[cur ^^^ 1]? = some (level[cur ^^^ 1]) :=
          List.getElem?_eq_getElem hs
        have hdec : siblingInLevel cur level.length = true := decide_eq_true hs
        rw [if_pos hdec] at hinj
        cases path with
        | nil =>
            rw [foldPath, if_pos hlen, if_pos hdec] at hfold
            cases hfold
        | cons s tail =>
            rw [foldPath_of_sibling used acc s tail hlen hs,
              <- length_reduceLevel node] at hfold
            have hup := ih hcur'
              (by
                intro p hp q hq
                rw [length_reduceLevel] at hq
                exact hinj p (List.mem_append_right _ hp) q
                  (List.mem_cons_of_mem _ hq))
              hroot' hfold
            -- the parent is the same hash value in the tree and in the fold
            have hparent := reduceLevel_of_sibling node hx hsib
            rw [hup.left] at hparent
            injection hparent with hvalue
            have hpair := hinj (orderedPair cur (level[cur]) (level[cur ^^^ 1]))
              (List.mem_append_left _ (orderedPair_mem_levelPairs hx hsib))
              (orderedPair cur acc s) List.mem_cons_self
              (by rw [node_orderedPair node, node_orderedPair node, hvalue])
            rcases orderedPair_inj hpair with ⟨hacc, hsibling⟩
            refine ⟨by rw [hx, hacc], ?_⟩
            rw [siblings_of_some hsib, hup.right, hsibling]
            rfl
      · have hnone : level.length <= cur ^^^ 1 := Nat.not_lt.mp hs
        have hdec : siblingInLevel cur level.length = false := decide_eq_false hs
        rw [hdec, if_neg Bool.false_ne_true] at hinj
        rw [foldPath_of_no_sibling used acc path hlen hnone,
          <- length_reduceLevel node] at hfold
        have hup := ih hcur'
          (by
            intro p hp q hq
            rw [length_reduceLevel] at hq
            exact hinj p (List.mem_append_right _ hp) q hq)
          hroot' hfold
        have hparent := reduceLevel_of_no_sibling node hx hnone
        rw [hup.left] at hparent
        rw [siblings_of_none hnone, hx]
        exact ⟨hparent.symm, hup.right⟩
  | case2 level cur hlen =>
      rw [foldPath.eq_def, if_neg hlen] at hfold
      injection hfold with hpair
      injection hpair with hacc hrest
      have hx : level[cur]? = some (level[cur]) := List.getElem?_eq_getElem hcur
      have hone := levelRoot_of_length_one node hlen hx
      rw [hroot] at hone
      rw [auditPath, if_neg hlen, hx, hacc]
      exact ⟨hone.symm, hrest⟩

end Climb

/-!
# Range proofs over BLAKE3
-/

section Service

variable (blake3 : Bytes -> Digest)

/-- The byte strings hashed by `ChunkProof` on this chunk list. -/
def chunkProofPreimages (chunks : List Addr) : List Bytes :=
  chunks.map leafPreimage ++
    (treePairs (merkleNode blake3) (chunks.map (merkleLeaf blake3))).map
      fun p => nodePreimage p.1 p.2

/-- The byte strings hashed by `VerifyChunkProof` on these arguments. -/
def verifyPreimages (nChunks index : Nat) (chunk : Bytes) (path : List Digest) :
    List Bytes :=
  chunk :: leafPreimage (hashBytes blake3 chunk) ::
    (foldPairs (merkleNode blake3) index nChunks
      (merkleLeaf blake3 (hashBytes blake3 chunk)) path).map
      fun p => nodePreimage p.1 p.2

/-- BLAKE3 does not collide on the given preimages. -/
def CollisionFreeOn (preimages : List Bytes) : Prop :=
  forall x, x ∈ preimages -> forall y, y ∈ preimages ->
    blake3 x = blake3 y -> x = y

variable {blake3}

theorem checkFold_eq_ok {root : Addr} {folded : Digest × List Digest} :
    checkFold root folded = Except.ok () <-> folded.2 = [] ∧ addrOfDigest folded.1 = root := by
  unfold checkFold
  split
  · split
    · simp [*]
    · simp [*]
  · simp [*]

theorem fold_bind_eq_ok {ε : Type} {fold : Except ε (Digest × List Digest)}
    {check : Digest × List Digest -> Except ε Unit} {root : Addr}
    (hcheck : forall folded,
      check folded = Except.ok () <-> folded.2 = [] ∧ addrOfDigest folded.1 = root) :
    (fold >>= check) = Except.ok () <->
      exists top, fold = Except.ok (top, []) ∧ addrOfDigest top = root := by
  rw [bind_eq_ok]
  constructor
  · intro h
    rcases h with ⟨⟨top, unused⟩, hfold, hok⟩
    rcases (hcheck _).mp hok with ⟨hunused, hroot⟩
    exact ⟨top, hunused ▸ hfold, hroot⟩
  · intro h
    rcases h with ⟨top, hfold, hroot⟩
    exact ⟨(top, []), hfold, (hcheck _).mpr ⟨rfl, hroot⟩⟩

theorem verifyChunkProof_eq_ok {root : Addr} {nChunks index : Int}
    {chunk : Bytes} {path : List Digest} :
    verifyChunkProof blake3 root nChunks index chunk path = Except.ok () <->
      0 <= index ∧ index < nChunks ∧ path.length <= maxProofPath ∧
      exists top,
        foldPath (merkleNode blake3) pathTooShort siblingInLevel index.toNat nChunks.toNat 0
            (merkleLeaf blake3 (hashBytes blake3 chunk)) path =
          Except.ok (top, []) ∧
        addrOfDigest top = root := by
  rw [<- fold_bind_eq_ok fun _ => checkFold_eq_ok]
  unfold verifyChunkProof
  split
  · exact iff_of_false (fun h => by cases h) (fun h => by omega)
  · split
    · exact iff_of_false (fun h => by cases h) (fun h => by omega)
    · split
      · exact iff_of_false (fun h => by cases h) (fun h => by omega)
      · exact ⟨fun h => ⟨by omega, by omega, by omega, h⟩, fun h => h.2.2.2⟩

theorem chunkProof_of_lt {chunks : List Addr} {index : Int} (hlow : 0 <= index)
    (hhigh : index < chunks.length) :
    chunkProof blake3 chunks index =
      Except.ok
        (auditPath (merkleNode blake3) (chunks.map (merkleLeaf blake3))
          index.toNat) := by
  unfold chunkProof
  rw [if_neg (by omega), if_neg (by omega)]

/--
Soundness: against the root of a chunk list, the verifier accepts only the chunk
that the list names at that index, and only with the prover's own path.
-/
theorem verifyChunkProof_sound (blake3 : Bytes -> Digest) (chunks : List Addr)
    (root : Addr) (index : Int) (chunk : Bytes) (path : List Digest)
    (hne : chunks ≠ []) (hroot : manifestRoot blake3 chunks = some root)
    (hfree : CollisionFreeOn blake3
      (chunkProofPreimages blake3 chunks ++
        verifyPreimages blake3 chunks.length index.toNat chunk path))
    (hok : verifyChunkProof blake3 root chunks.length index chunk path =
      Except.ok ()) :
    0 <= index ∧
      chunks[index.toNat]? = some (hashBytes blake3 chunk) ∧
      chunkProof blake3 chunks index = Except.ok path := by
  rcases verifyChunkProof_eq_ok.mp hok with
    ⟨hlow, hhigh, _, top, hfold, haddr⟩
  have hlen : (chunks.map (merkleLeaf blake3)).length = chunks.length :=
    List.length_map _
  have hcur : index.toNat < (chunks.map (merkleLeaf blake3)).length := by
    rw [hlen]
    omega
  have hlevel :
      levelRoot (merkleNode blake3) (chunks.map (merkleLeaf blake3)) = some top := by
    rw [manifestRoot_eq_levelRoot blake3 hne] at hroot
    rcases Option.map_eq_some_iff.mp hroot with ⟨d, hd, hdaddr⟩
    rw [hd, addrOfDigest_inj (hdaddr.trans haddr.symm)]
  have hnat : (chunks.length : Int).toNat = chunks.length := Int.toNat_natCast _
  rw [hnat, <- hlen] at hfold
  have hsound := foldPath_sound hcur
    (by
      intro p hp q hq hnode
      rw [hlen] at hq
      have hpre := hfree _
        (List.mem_append_left _
          (List.mem_append_right _ (List.mem_map_of_mem hp)))
        _
        (List.mem_append_right _
          (List.mem_cons_of_mem _
            (List.mem_cons_of_mem _ (List.mem_map_of_mem hq))))
        hnode
      rcases nodePreimage_inj hpre with ⟨hleft, hright⟩
      exact Prod.ext hleft hright)
    hlevel hfold
  have hleaf : exists h, chunks[index.toNat]? = some h ∧
      merkleLeaf blake3 h = merkleLeaf blake3 (hashBytes blake3 chunk) := by
    have hget := hsound.left
    rw [List.getElem?_map] at hget
    exact Option.map_eq_some_iff.mp hget
  rcases hleaf with ⟨h, hh, hhash⟩
  have hmem : h ∈ chunks := List.mem_of_getElem? hh
  have hpre := hfree _
    (List.mem_append_left _ (List.mem_append_left _ (List.mem_map_of_mem hmem)))
    _
    (List.mem_append_right _ (List.mem_cons_of_mem _ List.mem_cons_self))
    hhash
  refine ⟨hlow, ?_, ?_⟩
  · rw [hh, leafPreimage_inj hpre]
  · rw [chunkProof_of_lt hlow hhigh, hsound.right, List.append_nil]

/-- BLAKE3-256 on the byte strings that occur in the tree over `a` and `b`. -/
def blake3OfAB : Bytes -> Digest := fun x =>
  if x = asciiBytes "a" then
    digestOfNat 0x17762fddd969a453925d65717ac3eea21320b66b54342fde15128d6caf21215f
  else if x = asciiBytes "b" then
    digestOfNat 0x10e5cf3d3c8a4f9f3468c8cc58eea84892a22fdadbc1acb22410190044c1d553
  else if x = leafPreimage (addrOfDigest (digestOfNat
      0x17762fddd969a453925d65717ac3eea21320b66b54342fde15128d6caf21215f)) then
    digestOfNat 0x208e131bd1411e9d8c1d8417b9e9f370e2118a32b37535c77357c6d152348ac7
  else if x = leafPreimage (addrOfDigest (digestOfNat
      0x10e5cf3d3c8a4f9f3468c8cc58eea84892a22fdadbc1acb22410190044c1d553)) then
    digestOfNat 0x609ad16ca3186fc12dd32ce1d49ed57dd879c802246de385a20f7dbee2f89439
  else
    digestOfNat 0xabd36c78c5c484698bf962a24adc9293467661696e0897a500df261d2b1664f2

def chunkB : Addr :=
  hashBytes blake3OfAB (asciiBytes "b")

def rootOf (chunks : List Addr) : Addr :=
  (manifestRoot blake3OfAB chunks).getD chunkB

def chunksOfAB : List Bytes :=
  [asciiBytes "a", asciiBytes "b"]

theorem verifyChunkProof_sound_ab :
    chunkProof blake3OfAB (chunksOfAB.map (hashBytes blake3OfAB)) 1 =
      Except.ok [merkleLeaf blake3OfAB (hashBytes blake3OfAB (asciiBytes "a"))] := by
  have hsound := verifyChunkProof_sound blake3OfAB
    (chunksOfAB.map (hashBytes blake3OfAB))
    (addrOfDigest (digestOfNat
      0xabd36c78c5c484698bf962a24adc9293467661696e0897a500df261d2b1664f2))
    1 (asciiBytes "b")
    [merkleLeaf blake3OfAB (hashBytes blake3OfAB (asciiBytes "a"))]
    (by decide) (by decide +kernel)
    (by
      unfold CollisionFreeOn
      decide +kernel)
    (by decide +kernel)
  exact hsound.right.right

/--
Completeness: the prover's path for a chunk of a list of at most `2 ^ 40` chunks
exists, is within the bound on paths, and verifies.
-/
theorem verifyChunkProof_complete (blake3 : Bytes -> Digest)
    (chunks : List Bytes) (index : Nat) (chunk : Bytes)
    (hchunk : chunks[index]? = some chunk) (hbound : chunks.length <= 2 ^ 40) :
    exists root path,
      manifestRoot blake3 (chunks.map (hashBytes blake3)) = some root ∧
      chunkProof blake3 (chunks.map (hashBytes blake3)) index =
        Except.ok path ∧
      path.length <= maxProofPath ∧
      verifyChunkProof blake3 root chunks.length index chunk path =
        Except.ok () := by
  have hlt : index < chunks.length := (List.getElem?_eq_some_iff.mp hchunk).1
  have hne : chunks.map (hashBytes blake3) ≠ [] := by
    intro hnil
    rw [List.map_eq_nil_iff.mp hnil] at hlt
    cases hlt
  have hget : ((chunks.map (hashBytes blake3)).map
      (merkleLeaf blake3))[index]? =
      some (merkleLeaf blake3 (hashBytes blake3 chunk)) := by
    rw [List.getElem?_map, List.getElem?_map, hchunk]
    rfl
  have hlen : ((chunks.map (hashBytes blake3)).map (merkleLeaf blake3)).length =
      chunks.length := by
    rw [List.length_map, List.length_map]
  rcases foldPath_auditPath (merkleNode blake3) 0 [] hget with
    ⟨top, htop, hfold⟩
  rw [List.append_nil, hlen] at hfold
  have hpath := length_auditPath_le (merkleNode blake3)
    ((chunks.map (hashBytes blake3)).map (merkleLeaf blake3)) index
  have hclog : Nat.clog 2 chunks.length <= 40 := Nat.clog_le_of_le_pow hbound
  rw [hlen] at hpath
  refine ⟨addrOfDigest top, _, ?_, chunkProof_of_lt (by omega) ?_,
    le_trans hpath hclog, ?_⟩
  · rw [manifestRoot_eq_levelRoot blake3 hne, htop]
    rfl
  · rw [List.length_map]
    omega
  · exact verifyChunkProof_eq_ok.mpr
      ⟨by omega, by omega, le_trans hpath hclog, top, hfold, rfl⟩

theorem verifyChunkProof_complete_ab :
    exists root path,
      manifestRoot blake3OfAB (chunksOfAB.map (hashBytes blake3OfAB)) =
        some root ∧
      chunkProof blake3OfAB (chunksOfAB.map (hashBytes blake3OfAB)) (1 : Nat) =
        Except.ok path ∧
      path.length <= maxProofPath ∧
      verifyChunkProof blake3OfAB root chunksOfAB.length (1 : Nat)
        (asciiBytes "b") path = Except.ok () :=
  verifyChunkProof_complete blake3OfAB chunksOfAB 1 (asciiBytes "b") rfl
    (by decide)

end Service

end Pubcache
end Ephor
