import Ephor.Foundation.CborValue
import Ephor.Pubcache.CborGrammar
import Ephor.Pubcache.ProofSoundness
import Ephor.Pubcache.Verify

/-!
# The encoding of an accepted manifest

The gate reads the fields of a manifest and passes over its suite and its extensions, which
are skipped as values and never looked into.  So the manifest is deterministic as far as it is
read, and as a whole exactly when what is passed over is deterministic too.
-/

namespace Ephor
namespace Pubcache

open Foundation
open Foundation.Cbor
open Foundation.Cbor.Item (Deterministic MapSorted FloatShort SameValue)
open Foundation.CanonicalCbor (encodeHead majorUint majorBytes majorMap)

/-- The keys whose values the gate does not read. -/
def Unread (key : UInt64) : Prop :=
  key = manifestKeySuite ∨ manifestKeyExtensionFloor <= key

/-!
# What the gate reads
-/

def bytesItem (b : Bytes) : Item :=
  Item.node (Token.head majorBytes b.length b) []

theorem deterministic_leaf {major : Fin 8} {arg : Nat} {payload : Bytes} (harg : arg < 2 ^ 64)
    (hpayload : payload.length = Token.payloadLength major arg)
    (hmajor : major = majorUint ∨ major = majorBytes) :
    Deterministic (Item.node (Token.head major arg payload) []) := by
  have hsimple : major ≠ majorSimple := by
    cases hmajor with
    | inl heq | inr heq => exact heq ▸ (by decide)
  have hcount : Token.itemCount major arg = 0 := by
    cases hmajor with
    | inl heq | inr heq => exact heq ▸ rfl
  refine Item.deterministic_node.mpr ⟨⟨⟨⟨⟨harg, hpayload, ?_⟩, ?_⟩, hcount.symm⟩, ?_, trivial⟩, ?_⟩
  · intro heq
    exact absurd heq hsimple
  · intro _ _ heq
    cases heq
    exact absurd rfl hsimple
  · intro _
    exact List.Pairwise.nil
  · intro _ hx
    cases hx

theorem deterministic_uintItem (v : UInt64) : Deterministic (uintItem v) :=
  deterministic_leaf v.toNat_lt rfl (Or.inl rfl)

theorem deterministic_bytesItem {b : Bytes} (h : b.length < 2 ^ 64) : Deterministic (bytesItem b) :=
  deterministic_leaf h rfl (Or.inr rfl)

theorem encode_bytesItem (b : Bytes) :
    (bytesItem b).encode = encodeHead majorBytes b.length ++ b := by
  rw [bytesItem, Item.encode, Token.encode, Item.encodeAll, List.append_nil]

theorem encode_addrItem (a : Addr) :
    (bytesItem a.toBytes).encode = encodeHead majorBytes addrLen ++ a.toBytes := by
  rw [encode_bytesItem, a.length_eq]

theorem headOf_major_eq {major other : Fin 8} {arg : Nat}
    (h : (headOf major arg).major = UInt8.ofNat other.val) : major = other :=
  (ofNat_major_inj major other).mp h

theorem requireUintField_eq_ok {val : Bytes} {what : String} {bits : Nat} {n : UInt64}
    (h : requireUintField val what bits = Except.ok n) : val = (uintItem n).encode := by
  rcases bind_eq_ok.mp h with ⟨head, hhead, h⟩
  rcases eq_headOf_of_readHead hhead with ⟨major, arg, rest, harg, rfl, rfl⟩
  split at h
  · cases h
  rename_i hmajor
  split at h
  · cases h
  rename_i hsize
  split at h
  · cases h
  injection h with hn
  have huint : major = majorUint := headOf_major_eq (not_not.mp hmajor)
  have hlength : (encodeHead major arg).length = (encodeHead major arg ++ rest).length :=
    not_not.mp hsize
  rw [List.length_append] at hlength
  have hrest : rest = [] := List.eq_nil_of_length_eq_zero (by omega)
  rw [encode_uintItem, <- hn, toNat_arg_headOf major harg, huint, hrest, List.append_nil]

theorem readManifestID_eq_ok {val : Bytes} {a : Addr} (h : readManifestID val = Except.ok a) :
    val = (bytesItem a.toBytes).encode := by
  rcases bind_eq_ok.mp h with ⟨head, hhead, h⟩
  rcases eq_headOf_of_readHead hhead with ⟨major, arg, rest, harg, rfl, rfl⟩
  split at h
  · rename_i hlen
    injection h with ha
    have hbytes : major = majorBytes := headOf_major_eq hlen.1
    have hrest : a.toBytes = rest := by
      rw [<- ha]
      exact drop_size_headOf major arg rest
    have harglen : arg = rest.length := by
      rw [<- hrest, a.length_eq, <- hlen.2.1, toNat_arg_headOf major harg]
    rw [encode_bytesItem, hrest, hbytes, harglen]
  · cases h

theorem readAddr_eq_ok {b rest : Bytes} {a : Addr} (h : readAddr b = Except.ok (a, rest)) :
    b = (bytesItem a.toBytes).encode ++ rest := by
  rcases bind_eq_ok.mp h with ⟨head, hhead, h⟩
  rcases eq_headOf_of_readHead hhead with ⟨major, arg, after, harg, rfl, rfl⟩
  dsimp only at h
  split at h
  · cases h
  rename_i hmajor
  split at h
  · rename_i hlen
    split at h
    · injection h with hpair
      injection hpair with ha hrest
      have hbytes : major = majorBytes := headOf_major_eq (not_not.mp hmajor)
      rw [drop_size_headOf] at hrest
      have htake : a.toBytes = after.take addrLen := by
        rw [<- ha]
        exact congrArg (List.take addrLen) (drop_size_headOf major arg after)
      have harglen : arg = a.toBytes.length := by
        rw [a.length_eq, <- hlen.1, toNat_arg_headOf major harg]
      rw [encode_bytesItem, <- harglen, htake, hbytes, <- hrest, List.append_assoc,
        List.take_append_drop]
    · cases h
  · cases h

def addrItems (addrs : List Addr) : List Item :=
  addrs.map fun a => bytesItem a.toBytes

theorem readAddrs_eq_ok {count : Nat} {b rest : Bytes} {addrs : List Addr}
    (h : readAddrs count b = Except.ok (addrs, rest)) :
    b = Item.encodeAll (addrItems addrs) ++ rest := by
  induction count generalizing b addrs with
  | zero =>
      injection h with hpair
      injection hpair with haddrs hrest
      rw [<- haddrs, hrest]
      rfl
  | succ count ih =>
      rcases bind_eq_ok.mp h with ⟨⟨a, after⟩, ha, h⟩
      rcases bind_eq_ok.mp h with ⟨⟨tail, left⟩, htail, h⟩
      injection h with hpair
      injection hpair with haddrs hleft
      subst hleft
      have hcons : addrItems (a :: tail) = bytesItem a.toBytes :: addrItems tail := rfl
      rw [readAddr_eq_ok ha, ih htail, <- haddrs, hcons, Item.encodeAll, List.append_assoc]

def addrsItem (addrs : List Addr) : Item :=
  Item.node (Token.head majorArray addrs.length []) (addrItems addrs)

theorem parseAddrArray_eq_ok {b : Bytes} {addrs : List Addr}
    (h : parseAddrArray b = Except.ok addrs) :
    b = (addrsItem addrs).encode ∧ addrs.length < 2 ^ 64 := by
  rcases bind_eq_ok.mp h with ⟨head, hhead, h⟩
  rcases eq_headOf_of_readHead hhead with ⟨major, arg, after, harg, rfl, rfl⟩
  split at h
  · cases h
  rename_i hmajor
  split at h
  · cases h
  split at h
  · cases h
  rcases bind_eq_ok.mp h with ⟨⟨found, rest⟩, hread, h⟩
  dsimp only at h
  split at h
  · cases h
  rename_i hrest
  cases h
  rw [toNat_arg_headOf major harg, drop_size_headOf] at hread
  have hlength := (readAddrs_spec hread).1
  have harray : major = majorArray := headOf_major_eq (not_not.mp hmajor)
  constructor
  · rw [addrsItem, Item.encode, Token.encode, List.append_nil, hlength, harray,
      readAddrs_eq_ok hread, List.eq_nil_of_length_eq_zero (not_not.mp hrest), List.append_nil]
  · rw [hlength]
    exact harg

theorem deterministic_addrsItem {addrs : List Addr} (h : addrs.length < 2 ^ 64) :
    Deterministic (addrsItem addrs) := by
  have hloose : (Token.head majorArray addrs.length []).Loose :=
    ⟨h, rfl, fun heq => by cases heq⟩
  refine Item.deterministic_node.mpr ⟨⟨⟨⟨hloose, ?_⟩, ?_⟩, ?_, trivial⟩, ?_⟩
  · intro _ _ heq
    cases heq
  · exact List.length_map _
  · intro heq
    cases heq
  · intro x hx
    rcases List.mem_map.mp hx with ⟨a, _, rfl⟩
    apply deterministic_bytesItem
    rw [a.length_eq]
    decide

theorem deterministic_of_readManifestEntry {f f' : ManifestFields} {e : CborEntry}
    (h : readManifestEntry f e = Except.ok f') (hkey : ¬Unread e.key) :
    exists y, Deterministic y ∧ e.val = y.encode := by
  unfold readManifestEntry at h
  split at h
  · cases h
  split at h
  · rcases bind_eq_ok.mp h with ⟨selfID, hid, _⟩
    refine ⟨_, deterministic_bytesItem ?_, readManifestID_eq_ok hid⟩
    rw [selfID.length_eq]
    decide
  split at h
  · rcases bind_eq_ok.mp h with ⟨chunks, hchunks, _⟩
    rcases parseAddrArray_eq_ok hchunks with ⟨hval, hfew⟩
    exact ⟨_, deterministic_addrsItem hfew, hval⟩
  split at h
  · rcases bind_eq_ok.mp h with ⟨size, hsize, _⟩
    exact ⟨_, deterministic_uintItem size, requireUintField_eq_ok hsize⟩
  split at h
  · rcases bind_eq_ok.mp h with ⟨csz, hcsz, _⟩
    exact ⟨_, deterministic_uintItem csz, requireUintField_eq_ok hcsz⟩
  split at h
  · rename_i hsuite
    exact absurd (Or.inl hsuite) hkey
  split at h
  · cases h
  · rename_i hfloor
    exact absurd (Or.inr (UInt64.not_lt.mp hfloor)) hkey

theorem readManifestEntry_of_foldlM {entries : List CborEntry} {f f' : ManifestFields}
    (h : entries.foldlM readManifestEntry f = Except.ok f') {e : CborEntry} (he : e ∈ entries) :
    exists g g', readManifestEntry g e = Except.ok g' := by
  induction entries generalizing f with
  | nil => cases he
  | cons first entries ih =>
      rw [List.foldlM_cons] at h
      rcases bind_eq_ok.mp h with ⟨next, hnext, hrest⟩
      cases he with
      | head => exact ⟨f, next, hnext⟩
      | tail _ hmem => exact ih hrest hmem

/-!
# What the gate passes over
-/

/-- A node that deterministic items are made of, among the lax ones. -/
def Plain (token : Token) (items : List Item) : Prop :=
  RegularToken token ∧ MapSorted token items ∧ FloatShort token items

theorem Lax.deterministic_iff {levels : Nat} {x : Item} (h : Lax levels x) :
    Deterministic x ↔ x.Every Plain := by
  rw [Deterministic, h.wellFormed_iff]
  constructor
  · intro hdet
    exact hdet.1.and (hdet.2.1.and hdet.2.2)
  · intro hplain
    exact ⟨Item.Every.mono (fun _ _ hnode => hnode.1) hplain,
      Item.Every.mono (fun _ _ hnode => hnode.2.1) hplain,
      Item.Every.mono (fun _ _ hnode => hnode.2.2) hplain⟩

theorem LaxMap.mapSorted {pairs : List (UInt64 × Item)} (h : LaxMap pairs) :
    MapSorted (Token.head majorMap pairs.length []) (pairItems pairs) := by
  have hpairs : pairItems pairs =
      Item.ofPairs (pairs.map fun pair => (uintItem pair.1, pair.2)) := by
    rw [pairItems, Item.ofPairs, List.flatMap_map]
  intro _
  rw [Item.KeysAscend, hpairs, Item.pairsOf_ofPairs, List.pairwise_map]
  refine List.Pairwise.imp ?_ (List.pairwise_map.mp h.keys)
  intro p q hlt
  rw [encode_uintItem, encode_uintItem]
  exact encodeHead_lt majorUint (UInt64.lt_iff_toNat_lt.mp hlt) q.1.toNat_lt

section Gate

variable {blake3 : Bytes -> Digest} {want : Addr} {body : Bytes} {chunks : List Addr}

theorem deterministic_of_read {pairs : List (UInt64 × Item)}
    (h : verifiedManifestChunks blake3 want (mapItem pairs).encode = Except.ok chunks)
    (hpairs : LaxMap pairs) {pair : UInt64 × Item} (hmem : pair ∈ pairs)
    (hkey : ¬Unread pair.1) : Deterministic pair.2 := by
  rcases bind_eq_ok.mp h with ⟨entries, hentries, h⟩
  rcases bind_eq_ok.mp h with ⟨fields, hfields, _⟩
  rw [parseUintKeyedMap_eq_ok.mpr ⟨pairs, hpairs, rfl, rfl⟩] at hentries
  cases hentries
  rcases readManifestEntry_of_foldlM hfields (List.mem_map_of_mem hmem) with ⟨f, f', hread⟩
  rcases deterministic_of_readManifestEntry hread hkey with ⟨y, hy, hval⟩
  rw [Item.eq_of_encode (hpairs.values pair hmem).short hy.1 hval]
  exact hy

theorem forall_pairItems_iff {pairs : List (UInt64 × Item)} {P : Item -> Prop}
    (h : verifiedManifestChunks blake3 want (mapItem pairs).encode = Except.ok chunks)
    (hpairs : LaxMap pairs) (hdet : forall x, Deterministic x -> P x) :
    (forall x, x ∈ pairItems pairs -> P x) ↔
      forall pair, pair ∈ pairs -> Unread pair.1 -> P pair.2 := by
  constructor
  · intro hall pair hmem _
    exact hall pair.2 (mem_pairItems.mpr ⟨pair, hmem, Or.inr rfl⟩)
  · intro hunread x hx
    rcases mem_pairItems.mp hx with ⟨pair, hmem, hx⟩
    cases hx with
    | inl heq => exact heq ▸ hdet _ (deterministic_uintItem pair.1)
    | inr heq =>
        rw [heq]
        by_cases hkey : Unread pair.1
        · exact hunread pair hmem hkey
        · exact hdet _ (deterministic_of_read h hpairs hmem hkey)

end Gate

/-- The values that are not read are made of such nodes only. -/
def UnreadAre (ok : Token -> List Item -> Prop) (pairs : List (UInt64 × Item)) : Prop :=
  forall pair, pair ∈ pairs -> Unread pair.1 -> pair.2.Every ok

def DeterministicBytes (body : Bytes) : Prop :=
  exists x, Deterministic x ∧ x.encode = body

/-- Both are well-formed, and they stand for one value. -/
def DecodeAlike (body other : Bytes) : Prop :=
  exists x y : Item, x.WellFormed ∧ y.WellFormed ∧ x.encode = body ∧ y.encode = other ∧
    SameValue x y

theorem eq_of_decodeAlike {body other : Bytes} (hbody : DeterministicBytes body)
    (hother : DeterministicBytes other) (h : DecodeAlike body other) : body = other := by
  rcases hbody with ⟨x, hx, rfl⟩
  rcases hother with ⟨y, hy, rfl⟩
  rcases h with ⟨x', y', hx', hy', hencode, hencode', hsame⟩
  rw [Item.eq_of_encode hx'.short hx.1 hencode, Item.eq_of_encode hy'.short hy.1 hencode'] at hsame
  rw [Item.eq_of_sameValue hsame hx hy]

/-- The maps of an accepted manifest are sorted where those of its unread values are, the whole
is deterministic where these values are, and no other deterministic manifest stands for the
same value. -/
theorem deterministic_iff_unread (blake3 : Bytes -> Digest) {want : Addr} {body : Bytes}
    {chunks : List Addr} (h : verifiedManifestChunks blake3 want body = Except.ok chunks) :
    exists pairs, LaxMap pairs ∧ body = (mapItem pairs).encode ∧
      ((mapItem pairs).Every MapSorted ↔ UnreadAre MapSorted pairs) ∧
      (DeterministicBytes body ↔ UnreadAre Plain pairs) ∧
      (UnreadAre Plain pairs ->
        forall want' body' chunks', verifiedManifestChunks blake3 want' body' = Except.ok chunks' ->
          DeterministicBytes body' -> DecodeAlike body body' -> body = body') := by
  rcases bind_eq_ok.mp h with ⟨entries, hentries, _⟩
  rcases parseUintKeyedMap_eq_ok.mp hentries with ⟨pairs, hpairs, _, rfl⟩
  have hsorted : (mapItem pairs).Every MapSorted ↔ UnreadAre MapSorted pairs := by
    rw [mapItem, Item.every_node]
    exact (and_iff_right hpairs.mapSorted).trans
      (forall_pairItems_iff h hpairs fun _ hx => hx.2.1)
  have hdet : DeterministicBytes (mapItem pairs).encode ↔ UnreadAre Plain pairs := by
    have hroot : Deterministic (mapItem pairs) ↔ UnreadAre Plain pairs := by
      rw [mapItem, Item.deterministic_node]
      refine (and_iff_right ⟨⟨hpairs.token_valid, length_pairItems pairs⟩, hpairs.mapSorted,
        trivial⟩).trans ((forall_pairItems_iff h hpairs fun _ hx => hx).trans ?_)
      exact forall₂_congr fun pair hmem =>
        imp_congr_right fun _ => (hpairs.values pair hmem).deterministic_iff
    rw [<- hroot]
    constructor
    · intro hbytes
      rcases hbytes with ⟨x, hx, hencode⟩
      rw [Item.eq_of_encode hpairs.short hx.1 hencode.symm]
      exact hx
    · intro hpair
      exact ⟨_, hpair, rfl⟩
  refine ⟨pairs, hpairs, rfl, hsorted, hdet, ?_⟩
  intro hplain _ _ _ _ hbytes halike
  exact eq_of_decodeAlike (hdet.mpr hplain) hbytes halike

/-- A manifest whose suite is a number meets the theorem. -/
theorem plainSuite_deterministic :
    exists pairs, LaxMap pairs ∧
      sampleManifest (rootOf [chunkB]) [chunkB] [0x01] = (mapItem pairs).encode ∧
      ((mapItem pairs).Every MapSorted ↔ UnreadAre MapSorted pairs) ∧
      (DeterministicBytes (sampleManifest (rootOf [chunkB]) [chunkB] [0x01]) ↔
        UnreadAre Plain pairs) ∧
      (UnreadAre Plain pairs ->
        forall want' body' chunks',
          verifiedManifestChunks blake3OfAB want' body' = Except.ok chunks' ->
          DeterministicBytes body' ->
          DecodeAlike (sampleManifest (rootOf [chunkB]) [chunkB] [0x01]) body' ->
          sampleManifest (rootOf [chunkB]) [chunkB] [0x01] = body') :=
  @deterministic_iff_unread blake3OfAB (rootOf [chunkB]) _ [chunkB] (by decide +kernel)

/-!
# Two manifests of one value
-/

def sampleItem (suite : Item) : Item :=
  mapItem [(1, bytesItem (rootOf [chunkB]).toBytes), (2, uintItem 1), (3, uintItem 1),
    (4, addrsItem [chunkB]), (6, suite)]

def sortedSuite : Item :=
  mapItem [(0, uintItem 1), (2, uintItem 0)]

def unsortedSuite : Item :=
  mapItem [(2, uintItem 0), (0, uintItem 1)]

theorem encode_sortedSuite : sortedSuite.encode = [0xa2, 0x00, 0x01, 0x02, 0x00] := by
  decide

theorem encode_unsortedSuite : unsortedSuite.encode = [0xa2, 0x02, 0x00, 0x00, 0x01] := by
  decide

theorem encode_addrsItem (addrs : List Addr) :
    (addrsItem addrs).encode = encodeHead majorArray addrs.length ++
      addrs.flatMap fun a => encodeHead majorBytes addrLen ++ a.toBytes := by
  have haddrs : Item.encodeAll (addrItems addrs) =
      addrs.flatMap fun a => encodeHead majorBytes addrLen ++ a.toBytes := by
    induction addrs with
    | nil => rfl
    | cons a addrs ih =>
        rw [List.flatMap_cons, <- ih, <- encode_addrItem]
        rfl
  rw [addrsItem, Item.encode, Token.encode, haddrs, List.append_nil]

theorem encode_sampleItem (suite : Item) :
    (sampleItem suite).encode = sampleManifest (rootOf [chunkB]) [chunkB] suite.encode := by
  have hheads : encodeHead majorBytes addrLen = [0x58, 0x21] := by
    decide
  rw [sampleItem, encode_mapItem, encodeAll_pairItems_cons, encodeAll_pairItems_cons,
    encodeAll_pairItems_cons, encodeAll_pairItems_cons, encodeAll_pairItems_cons,
    encode_addrItem, encode_addrsItem, hheads]
  simp only [encode_uintItem, sampleManifest, List.append_assoc]
  generalize (rootOf [chunkB]).toBytes = id
  generalize (List.flatMap _ [chunkB]) = listed
  rw [show Item.encodeAll (pairItems []) = [] from rfl, List.append_nil]
  rfl

theorem wellFormed_sampleItem {suite : Item} (h : suite.WellFormed) :
    (sampleItem suite).WellFormed := by
  have hfew : 5 < 2 ^ 64 := by decide
  refine mapItem_wellFormed hfew ?_
  intro pair hmem
  simp only [List.mem_cons, List.not_mem_nil, or_false] at hmem
  rcases hmem with rfl | rfl | rfl | rfl | rfl
  · exact (deterministic_bytesItem (by rw [(rootOf [chunkB]).length_eq]; decide)).1
  · exact uintItem_wellFormed 1
  · exact uintItem_wellFormed 1
  · exact (deterministic_addrsItem (by decide)).1
  · exact h

theorem wellFormed_suite {a b c d : UInt64} :
    (mapItem [(a, uintItem b), (c, uintItem d)]).WellFormed := by
  have hfew : 2 < 2 ^ 64 := by decide
  refine mapItem_wellFormed hfew ?_
  intro pair hmem
  simp only [List.mem_cons, List.not_mem_nil, or_false] at hmem
  rcases hmem with rfl | rfl
  · exact uintItem_wellFormed b
  · exact uintItem_wellFormed d

theorem not_deterministic_unsortedSuite : ¬Deterministic unsortedSuite := by
  intro h
  have hascend := (Item.every_node.mp h.2.1).1 rfl
  have hlt := (List.pairwise_cons.mp hascend).1 (uintItem 0, uintItem 1) List.mem_cons_self
  exact absurd hlt (by decide)

theorem sameValue_suite : SameValue unsortedSuite sortedSuite := by
  show SameValue
    (Item.node (Token.head majorMap 2 [])
      (Item.ofPairs [(uintItem 2, uintItem 0), (uintItem 0, uintItem 1)]))
    (Item.node (Token.head majorMap 2 [])
      (Item.ofPairs [(uintItem 0, uintItem 1), (uintItem 2, uintItem 0)]))
  refine SameValue.perm ?_ (List.Perm.swap _ _ _)
  intro pair hmem
  simp only [List.mem_cons, List.not_mem_nil, or_false] at hmem
  rcases hmem with rfl | rfl
  · exact ⟨uintItem_wellFormed 2, uintItem_wellFormed 0⟩
  · exact ⟨uintItem_wellFormed 0, uintItem_wellFormed 1⟩

def sampleFields : List Item :=
  pairItems [(1, bytesItem (rootOf [chunkB]).toBytes), (2, uintItem 1), (3, uintItem 1),
    (4, addrsItem [chunkB])] ++ [uintItem 6]

theorem sampleItem_eq (suite : Item) :
    sampleItem suite = Item.node (Token.head majorMap 5 []) (sampleFields ++ [suite]) := rfl

theorem mem_of_sampleItem {suite x : Item} (h : Deterministic (sampleItem suite))
    (hx : x ∈ sampleFields ++ [suite]) : Deterministic x := by
  rw [sampleItem_eq] at h
  exact (Item.deterministic_node.mp h).2 x hx

theorem sameValue_sampleItem {suite other : Item} (hwell : suite.WellFormed)
    (h : SameValue suite other) : SameValue (sampleItem suite) (sampleItem other) := by
  have hitems := wellFormed_sampleItem hwell
  rw [sampleItem_eq] at hitems
  rw [sampleItem_eq, sampleItem_eq]
  exact SameValue.append
    (fun z hz => (Item.every_node.mp hitems).2 z (List.mem_append_left _ hz)) h

/-- The suite is a map with its two keys in either order: both manifests are accepted, and they
stand for one value. -/
theorem unsortedSuite_accepted :
    verifiedManifestChunks blake3OfAB (rootOf [chunkB])
        (sampleManifest (rootOf [chunkB]) [chunkB] [0xa2, 0x02, 0x00, 0x00, 0x01]) =
      Except.ok [chunkB] ∧
    verifiedManifestChunks blake3OfAB (rootOf [chunkB])
        (sampleManifest (rootOf [chunkB]) [chunkB] [0xa2, 0x00, 0x01, 0x02, 0x00]) =
      Except.ok [chunkB] ∧
    DecodeAlike (sampleManifest (rootOf [chunkB]) [chunkB] [0xa2, 0x02, 0x00, 0x00, 0x01])
      (sampleManifest (rootOf [chunkB]) [chunkB] [0xa2, 0x00, 0x01, 0x02, 0x00]) ∧
    ¬DeterministicBytes
      (sampleManifest (rootOf [chunkB]) [chunkB] [0xa2, 0x02, 0x00, 0x00, 0x01]) := by
  refine ⟨by decide +kernel, by decide +kernel, ?_, ?_⟩
  · rw [<- encode_unsortedSuite, <- encode_sortedSuite, <- encode_sampleItem,
      <- encode_sampleItem]
    refine ⟨_, _, wellFormed_sampleItem wellFormed_suite, wellFormed_sampleItem wellFormed_suite,
      rfl, rfl, ?_⟩
    exact sameValue_sampleItem wellFormed_suite sameValue_suite
  · intro hbytes
    rcases hbytes with ⟨x, hx, hencode⟩
    rw [<- encode_unsortedSuite, <- encode_sampleItem] at hencode
    rw [Item.eq_of_encode hx.1.short (wellFormed_sampleItem wellFormed_suite) hencode] at hx
    exact not_deterministic_unsortedSuite
      (mem_of_sampleItem hx (List.mem_append_right _ List.mem_cons_self))

end Pubcache
end Ephor
