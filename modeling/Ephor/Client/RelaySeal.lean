import Ephor.Foundation.JsonSize
import Ephor.Client.RelayBox

/-!
# Sealed and opened

What is sealed for a recipient opens with the recipient's private keys to the same bytes, in
both versions, and the length of a blob is determined by the length of what is sealed.
-/

namespace Ephor
namespace Client
namespace RelayBox

open Foundation
open Foundation.WebText
open Foundation.Json

variable {platform : Platform} {prim : Primitives}

/-- The key that the holder of the private key announces. -/
def publicB64 (prim : Primitives) (priv : FixedBytes 32) : JsString :=
  bytesToB64 (prim.getPublicKey priv).toBytes

theorem b64ToBytes_publicB64 (platform : Platform) (prim : Primitives) (priv : FixedBytes 32) :
    b64ToBytes platform (Value.string (publicB64 prim priv)) =
      some (prim.getPublicKey priv).toBytes :=
  atob_btoa _

theorem deriveKey_agree (hlawful : prim.Lawful) (a b : FixedBytes 32) :
    exists key, deriveKey prim a (prim.getPublicKey b).toBytes = some key ∧
      deriveKey prim b (prim.getPublicKey a).toBytes = some key := by
  rcases Option.isSome_iff_exists.mp (hlawful.shared_isSome a b) with ⟨shared, hshared⟩
  refine ⟨prim.hkdf shared none hkdfInfo, ?_, ?_⟩
  · rw [deriveKey, hshared]
    rfl
  · rw [deriveKey, <- hlawful.shared_comm, hshared]
    rfl

theorem sealRelayBlob_open (hlawful : prim.Lawful) (nonce : FixedBytes 24) (plaintext : Bytes)
    (senderPriv recipientPriv : FixedBytes 32) (sender recipient session : JsString) :
    exists blob, sealRelayBlob platform prim nonce plaintext senderPriv
        (Value.string (publicB64 prim recipientPriv)) sender recipient session = some blob ∧
      blob.length = (41 + plaintext.length + 2) / 3 * 4 ∧
      relayBlobVersion blob = some boxVersion ∧
      openRelayBlob platform prim blob recipientPriv
        (Value.string (publicB64 prim senderPriv)) sender recipient session =
          some plaintext := by
  rcases deriveKey_agree hlawful senderPriv recipientPriv with ⟨key, hseal, hopen⟩
  let sealed := prim.encrypt key nonce.toBytes (aad sender recipient session) plaintext
  have hlength : sealed.length = plaintext.length + 16 := hlawful.length_encrypt _ _ _ _
  refine ⟨bytesToB64 (boxVersion :: nonce.toBytes ++ sealed), ?_, ?_, ?_, ?_⟩
  · rw [sealRelayBlob, b64ToBytes_publicB64]
    simp only [Option.bind_eq_bind, Option.bind_some, hseal]
    rfl
  · rw [bytesToB64, length_btoa]
    simp only [List.cons_append, List.length_cons, List.length_append, nonce.length_eq, hlength]
    omega
  · rw [relayBlobVersion, bytesToB64, atob_btoa]
    rfl
  · rw [openRelayBlob, bytesToB64, atob_btoa, b64ToBytes_publicB64]
    have hlong : Not ((boxVersion :: nonce.toBytes ++ sealed).length <
        1 + nonceLen + tagLen) := by
      simp only [List.cons_append, List.length_cons, List.length_append, nonce.length_eq,
        hlength, nonceLen, tagLen]
      omega
    have hnonce : ((boxVersion :: nonce.toBytes ++ sealed).drop 1).take nonceLen =
        nonce.toBytes := by
      rw [List.cons_append, List.drop_one, List.tail_cons]
      exact List.take_left' nonce.length_eq
    have hsealed : (boxVersion :: nonce.toBytes ++ sealed).drop (1 + nonceLen) = sealed := by
      rw [List.cons_append, Nat.add_comm, List.drop_succ_cons]
      exact List.drop_left' nonce.length_eq
    have hversion : Not ((boxVersion :: nonce.toBytes ++ sealed).head? ≠ some boxVersion) :=
      not_not.mpr rfl
    simp only [Option.bind_eq_bind, Option.bind_some, hopen]
    rw [if_neg hlong, if_neg hversion, hnonce, hsealed]
    exact hlawful.decrypt_encrypt _ _ _ _

/-!
# The handshake
-/

def oneTimePublic (prim : Primitives) (priv : Option (FixedBytes 32)) : Option Bytes :=
  priv.map fun priv => (prim.getPublicKey priv).toBytes

/-- Both sides of the handshake derive the same key. -/
theorem x3dh_agree (hlawful : prim.Lawful) (ekPriv senderPriv recipientPriv spkPriv : FixedBytes 32)
    (opkPriv : Option (FixedBytes 32)) (sender recipient : JsString) :
    exists sk, x3dhInitiate platform prim ekPriv senderPriv
        (prim.getPublicKey recipientPriv).toBytes (prim.getPublicKey spkPriv).toBytes
        (oneTimePublic prim opkPriv) sender recipient = some (prim.getPublicKey ekPriv, sk) ∧
      x3dhRespond platform prim recipientPriv (prim.getPublicKey senderPriv).toBytes spkPriv
        opkPriv (prim.getPublicKey ekPriv).toBytes (some (Value.string sender)) recipient =
          some sk := by
  have hshared : forall a b : FixedBytes 32, exists shared,
      prim.getSharedSecret a (prim.getPublicKey b).toBytes = some shared ∧
        prim.getSharedSecret b (prim.getPublicKey a).toBytes = some shared := by
    intro a b
    rcases Option.isSome_iff_exists.mp (hlawful.shared_isSome a b) with ⟨shared, hshared⟩
    exact ⟨shared, hshared, (hlawful.shared_comm a b).symm.trans hshared⟩
  rcases hshared senderPriv spkPriv with ⟨dh1, hseal1, hopen1⟩
  rcases hshared ekPriv recipientPriv with ⟨dh2, hseal2, hopen2⟩
  rcases hshared ekPriv spkPriv with ⟨dh3, hseal3, hopen3⟩
  have hfourth : exists dh4, oneTimeShare prim ekPriv (oneTimePublic prim opkPriv) = some dh4 ∧
      respondShare prim (prim.getPublicKey ekPriv).toBytes opkPriv = some dh4 := by
    cases opkPriv with
    | none => exact ⟨[], rfl, rfl⟩
    | some priv =>
        rcases hshared ekPriv priv with ⟨dh4, hseal4, hopen4⟩
        have hsize : (prim.getPublicKey priv).toBytes.length = x25519Len :=
          (prim.getPublicKey priv).length_eq
        refine ⟨dh4, ?_, hopen4⟩
        rw [oneTimePublic, Option.map_some, oneTimeShare, if_pos hsize]
        exact hseal4
  rcases hfourth with ⟨dh4, hseal4, hopen4⟩
  have hsalt : exists salt, x3dhSalt platform (some (Value.string sender)) recipient =
      some salt := ⟨_, rfl⟩
  rcases hsalt with ⟨salt, hsalt⟩
  refine ⟨prim.hkdf (List.replicate 32 0xFF ++ (dh1 ++ dh2 ++ dh3 ++ dh4)) (some salt)
    x3dhHkdfInfo, ?_, ?_⟩
  · rw [x3dhInitiate, hseal1, hseal2, hseal3, hseal4]
    simp only [Option.bind_eq_bind, Option.bind_some, x3dhKDF, hsalt, Option.map_some]
    rfl
  · have hsize : Not ((prim.getPublicKey ekPriv).toBytes.length ≠ x25519Len) :=
      not_not.mpr (prim.getPublicKey ekPriv).length_eq
    rw [x3dhRespond, if_neg hsize, hopen1, hopen2, hopen3, hopen4]
    simp only [Option.bind_eq_bind, Option.bind_some, x3dhKDF, hsalt, Option.map_some]

/-!
# The header of version 2
-/

theorem length_newKeyID (random : FixedBytes 12) : (newKeyID random).length = 16 := by
  rw [newKeyID, List.length_map, bytesToB64, length_btoa, random.length_eq]

theorem isPlain_newKeyID (random : FixedBytes 12) {u : UInt16} (hu : u ∈ newKeyID random) :
    isPlain u = true := by
  rcases List.mem_map.mp hu with ⟨v, hv, rfl⟩
  rw [urlUnit]
  split
  · decide
  · split
    · decide
    · exact isPlain_btoa hv

def headerLength (opkId : Option JsString) : Nat :=
  if opkId.isSome then 115 else 101

def GeneratedId (id : JsString) : Prop :=
  exists random, id = newKeyID random

theorem quotedSize_generatedId {id : JsString} (h : GeneratedId id) :
    quotedSize Char.utf8Size id = 18 := by
  rcases h with ⟨random, rfl⟩
  rw [quotedSize_plain weighsAscii_utf8Size fun _ hu => isPlain_newKeyID random hu,
    length_newKeyID]

theorem quotedSize_publicB64 (prim : Primitives) (priv : FixedBytes 32) :
    quotedSize Char.utf8Size (publicB64 prim priv) = 46 := by
  rw [publicB64, bytesToB64, quotedSize_plain weighsAscii_utf8Size fun _ hu => isPlain_btoa hu,
    length_btoa, (prim.getPublicKey priv).length_eq]

theorem length_v2HeaderBytes (platform : Platform) (prim : Primitives) (ekPriv : FixedBytes 32)
    {spkId : JsString} (hspk : GeneratedId spkId) {opkId : Option JsString}
    (hopk : forall id, opkId = some id -> GeneratedId id) :
    (v2HeaderBytes platform (publicB64 prim ekPriv) (some (Value.string spkId)) opkId).length =
      headerLength opkId := by
  have hmembers : v2Header (publicB64 prim ekPriv) (some (Value.string spkId)) opkId =
      Value.object
        [(vName, Value.number (Number.finite 2)), (ekName, Value.string (publicB64 prim ekPriv)),
          (spkIdName, Value.string spkId), (opkIdName, orNull (opkId.map Value.string))] :=
    rfl
  have htwo : textSize Char.utf8Size
      (stringify platform.numerals (Value.number (Number.finite 2))) = 1 := by
    have hdigit : platform.numerals.write 2 = [digit 2] :=
      platform.numerals.write_digit 2 (by decide)
    rw [stringify, writeNumber, hdigit]
    rfl
  have hopkSize : textSize Char.utf8Size
      (stringify platform.numerals (orNull (opkId.map Value.string))) + 97 =
        headerLength opkId := by
    cases opkId with
    | none => rfl
    | some id =>
        rw [Option.map_some, orNull, stringify, textSize_quote weighsAscii_utf8Size,
          quotedSize_generatedId (hopk id rfl)]
        rfl
  have hnames : quotedSize Char.utf8Size vName = 3 ∧ quotedSize Char.utf8Size ekName = 4 ∧
      quotedSize Char.utf8Size spkIdName = 8 ∧ quotedSize Char.utf8Size opkIdName = 8 := by
    decide
  rcases hnames with ⟨hv, hek, hspkName, hopkName⟩
  rw [v2HeaderBytes, hmembers, length_utf8, textSize_object weighsAscii_utf8Size]
  simp only [List.map_cons, List.map_nil, List.sum_cons, List.sum_nil, memberSize, hv, hek,
    hspkName, hopkName, htwo]
  rw [stringify, textSize_quote weighsAscii_utf8Size, quotedSize_publicB64, stringify,
    textSize_quote weighsAscii_utf8Size, quotedSize_generatedId hspk]
  omega

theorem readV2Header_parse (platform : Platform) (prim : Primitives) (ekPriv : FixedBytes 32)
    (spkId : JsString) (opkId : Option JsString) :
    (parse platform.numerals (decode (v2HeaderBytes platform (publicB64 prim ekPriv)
        (some (Value.string spkId)) opkId))).bind readV2Header =
      some ((prim.getPublicKey ekPriv).toBytes, spkId, opkId.map Value.string) := by
  let members : List (JsString × Value) :=
    [(vName, Value.number (Number.finite 2)), (ekName, Value.string (publicB64 prim ekPriv)),
      (spkIdName, Value.string spkId), (opkIdName, orNull (opkId.map Value.string))]
  have hvalues : forall member, member ∈ members -> ReadsBack platform.numerals member.2 := by
    intro member hmem
    simp only [members, List.mem_cons, List.not_mem_nil, or_false] at hmem
    rcases hmem with rfl | rfl | rfl | rfl
    · exact readsBack_digit platform.numerals (by decide)
    · exact readsBack_string platform.numerals _
    · exact readsBack_string platform.numerals _
    · cases opkId with
      | none => exact readsBack_null platform.numerals
      | some id => exact readsBack_string platform.numerals id
  have hnames : members.map Prod.fst = [vName, ekName, spkIdName, opkIdName] := rfl
  have hplainNames : forall name, name ∈ [vName, ekName, spkIdName, opkIdName] ->
      arrayIndex? name = none := by
    decide
  have hplain : forall member, member ∈ members -> arrayIndex? member.1 = none := by
    intro member hmem
    apply hplainNames
    rw [<- hnames]
    exact List.mem_map_of_mem hmem
  have hfresh : (members.map Prod.fst).Nodup := by
    rw [hnames]
    decide
  have hbrace : v2HeaderBytes platform (publicB64 prim ekPriv) (some (Value.string spkId)) opkId =
      Text.utf8 (stringify platform.numerals (Value.object members)) :=
    rfl
  have hdecode : decode (Text.utf8 (stringify platform.numerals (Value.object members))) =
      stringify platform.numerals (Value.object members) :=
    decode_utf8 (by decide)
  have hv : (Value.object members).get vName = some (Value.number (Number.finite 2)) := rfl
  have hek : (Value.object members).get ekName = some (Value.string (publicB64 prim ekPriv)) := rfl
  have hspk : (Value.object members).get spkIdName = some (Value.string spkId) := rfl
  have hopk : (Value.object members).get opkIdName = some (orNull (opkId.map Value.string)) := rfl
  have hpub : atob (publicB64 prim ekPriv) = some (prim.getPublicKey ekPriv).toBytes :=
    atob_btoa _
  have hsize : (prim.getPublicKey ekPriv).toBytes.length = x25519Len :=
    (prim.getPublicKey ekPriv).length_eq
  rw [hbrace, hdecode, parse_stringify hvalues hplain hfresh, Option.bind_some, readV2Header, hv,
    hek, hspk, hopk]
  simp only [asNumber, asString, hpub, if_pos hsize, if_true]
  cases opkId <;> rfl

/-!
# Blobs of version 2
-/

theorem sealRelayBlobV2_open (hlawful : prim.Lawful) (nonce : FixedBytes 24)
    (plaintext key : Bytes) (ekPriv : FixedBytes 32) {spkId : JsString}
    (hspk : GeneratedId spkId) {opkId : Option JsString}
    (hopk : forall id, opkId = some id -> GeneratedId id) (sender recipient session : JsString) :
    exists blob parsed, sealRelayBlobV2 platform prim nonce plaintext key
        (prim.getPublicKey ekPriv) (some (Value.string spkId)) opkId sender recipient session =
          some blob ∧
      blob.length = (43 + headerLength opkId + plaintext.length + 2) / 3 * 4 ∧
      relayBlobVersion blob = some boxVersionV2 ∧
      parseRelayBlobV2 platform blob = some parsed ∧
      parsed.ephemeralPub = (prim.getPublicKey ekPriv).toBytes ∧ parsed.signedPreKeyId = spkId ∧
      parsed.oneTimePreKeyId = opkId.map Value.string ∧
      openRelayBlobV2 prim parsed key sender recipient session = some plaintext := by
  let header := v2HeaderBytes platform (publicB64 prim ekPriv) (some (Value.string spkId)) opkId
  have hheader : header.length = headerLength opkId :=
    length_v2HeaderBytes platform prim ekPriv hspk hopk
  have hshort : header.length < 256 := by
    rw [hheader, headerLength]
    split <;> decide
  let sealed := prim.encrypt key nonce.toBytes (v2Aad sender recipient session header) plaintext
  have hlength : sealed.length = plaintext.length + 16 := hlawful.length_encrypt _ _ _ _
  let raw := boxVersionV2 :: UInt8.ofNat (header.length / 256) :: UInt8.ofNat header.length ::
    (header ++ nonce.toBytes ++ sealed)
  have hread : atob (bytesToB64 raw) = some raw := atob_btoa raw
  have hlow : (UInt8.ofNat (header.length / 256)).toNat * 256 +
      (UInt8.ofNat header.length).toNat = header.length := by
    rw [UInt8.toNat_ofNat', UInt8.toNat_ofNat', Nat.div_eq_of_lt hshort]
    omega
  have hlong : Not ((header ++ nonce.toBytes ++ sealed).length <
      header.length + nonceLen + tagLen) := by
    simp only [List.length_append, nonce.length_eq, hlength, nonceLen, tagLen]
    omega
  have htake : (header ++ nonce.toBytes ++ sealed).take header.length = header := by
    rw [List.append_assoc]
    exact List.take_left' rfl
  have hnonce : ((header ++ nonce.toBytes ++ sealed).drop header.length).take nonceLen =
      nonce.toBytes := by
    rw [List.append_assoc, List.drop_left' rfl]
    exact List.take_left' nonce.length_eq
  have hsealed : (header ++ nonce.toBytes ++ sealed).drop (header.length + nonceLen) =
      sealed := by
    apply List.drop_left'
    rw [List.length_append, nonce.length_eq]
    rfl
  refine ⟨bytesToB64 raw, ⟨(prim.getPublicKey ekPriv).toBytes, spkId, opkId.map Value.string,
    header, nonce.toBytes, sealed⟩, ?_, ?_, ?_, ?_, rfl, rfl, rfl, ?_⟩
  · have hfits : Not (0xffff < header.length) := by omega
    exact if_neg hfits
  · rw [bytesToB64, length_btoa]
    simp only [raw, List.length_cons, List.length_append, nonce.length_eq, hlength, hheader]
    omega
  · rw [relayBlobVersion, hread]
    rfl
  · rw [parseRelayBlobV2, hread]
    simp only [raw, hlow]
    rw [if_neg (not_not.mpr rfl), if_neg hlong, htake, readV2Header_parse]
    simp only [hnonce, hsealed]
  · exact hlawful.decrypt_encrypt _ _ _ _

end RelayBox
end Client
end Ephor
