import Mathlib.Data.UInt
import Ephor.Foundation.Json

/-!
# Sealed relay blobs

`client/src/relayBox.ts` and `client/src/prekeys.ts`: the content encryption of the
relay fallback.  Version 1 takes its key from the two box keys alone, version 2 from
the X3DH handshake with the recipient's signed prekey and, where one could be claimed,
a one-time prekey.  The primitives come from other packages; a `none` stands for an
exception.
-/

namespace Ephor
namespace Client
namespace RelayBox

open Foundation
open Foundation.WebText

structure Primitives where
  getPublicKey : FixedBytes 32 -> FixedBytes 32
  /-- `x25519.getSharedSecret`, which throws on a public key it does not accept. -/
  getSharedSecret : FixedBytes 32 -> Bytes -> Option Bytes
  /-- `hkdf` with SHA-256 and 32 bytes of output: key material, salt and info. -/
  hkdf : Bytes -> Option Bytes -> Bytes -> Bytes
  encrypt : Bytes -> Bytes -> Bytes -> Bytes -> Bytes
  decrypt : Bytes -> Bytes -> Bytes -> Bytes -> Option Bytes

/--
What the packages promise: the two sides of an exchange agree and public keys of another
length are refused; the cipher adds a tag of sixteen bytes, opens what it sealed and opens
nothing else.
-/
structure Primitives.Lawful (prim : Primitives) : Prop where
  shared_comm : forall a b, prim.getSharedSecret a (prim.getPublicKey b).toBytes =
    prim.getSharedSecret b (prim.getPublicKey a).toBytes
  shared_isSome : forall a b, (prim.getSharedSecret a (prim.getPublicKey b).toBytes).isSome
  length_of_shared : forall a pub, (prim.getSharedSecret a pub).isSome -> pub.length = 32
  length_encrypt : forall key nonce aad plaintext,
    (prim.encrypt key nonce aad plaintext).length = plaintext.length + 16
  decrypt_encrypt : forall key nonce aad plaintext,
    prim.decrypt key nonce aad (prim.encrypt key nonce aad plaintext) = some plaintext
  encrypt_of_decrypt : forall key nonce aad sealed plaintext,
    prim.decrypt key nonce aad sealed = some plaintext ->
      sealed = prim.encrypt key nonce aad plaintext

structure Platform where
  numerals : Json.Numerals
  /-- `id > other`; two strings are compared by their code units. -/
  above : Option Json.Value -> JsString -> Bool
  above_string : forall id other, above (some (Json.Value.string id)) other = decide (other < id)

variable (platform : Platform) (prim : Primitives)

def boxVersion : UInt8 := 0x01

def boxVersionV2 : UInt8 := 0x02

def nonceLen : Nat := 24

def tagLen : Nat := 16

def hkdfInfo : Bytes :=
  Text.utf8 ['v', 'u', 'l', 'o', 's', '-', 'r', 'e', 'l', 'a', 'y', '-', 'b', 'o', 'x', '-',
    'v', '1']

def bytesToB64 (b : Bytes) : JsString :=
  btoa b

/-- `b64ToBytes`: whatever it is given is converted to a string first. -/
def b64ToBytes (v : Json.Value) : Option Bytes :=
  (Json.toText platform.numerals v).bind atob

def deriveKey (myPriv : FixedBytes 32) (theirPub : Bytes) : Option Bytes :=
  (prim.getSharedSecret myPriv theirPub).map fun shared => prim.hkdf shared none hkdfInfo

def aad (sender recipient session : JsString) : Bytes :=
  encode (sender ++ 0x7C :: recipient ++ 0x7C :: session)

/-!
# Version 1
-/

def sealRelayBlob (nonce : FixedBytes 24) (plaintext : Bytes) (senderBoxPriv : FixedBytes 32)
    (recipientBoxPubB64 : Json.Value) (sender recipient session : JsString) :
    Option JsString := do
  let recipientPub <- b64ToBytes platform recipientBoxPubB64
  let key <- deriveKey prim senderBoxPriv recipientPub
  let sealed := prim.encrypt key nonce.toBytes (aad sender recipient session) plaintext
  return bytesToB64 (boxVersion :: nonce.toBytes ++ sealed)

def openRelayBlob (blobB64 : JsString) (recipientBoxPriv : FixedBytes 32)
    (senderBoxPubB64 : Json.Value) (sender recipient session : JsString) : Option Bytes := do
  let raw <- atob blobB64
  if raw.length < 1 + nonceLen + tagLen then none
  else if raw.head? ≠ some boxVersion then none
  else
    let senderPub <- b64ToBytes platform senderBoxPubB64
    let key <- deriveKey prim recipientBoxPriv senderPub
    prim.decrypt key ((raw.drop 1).take nonceLen) (aad sender recipient session)
      (raw.drop (1 + nonceLen))

/-!
# The X3DH handshake
-/

def x25519Len : Nat := 32

def x3dhHkdfInfo : Bytes :=
  Text.utf8 ['v', 'u', 'l', 'a', '-', 'x', '3', 'd', 'h', '-', 'c', 'o', 'n', 't', 'e', 'n',
    't', '-', 'v', '2']

/-- The two ids, the smaller one first. -/
def x3dhSalt (idA : Option Json.Value) (idB : JsString) : Option Bytes :=
  (Json.templateText platform.numerals idA).map fun textA =>
    if platform.above idA idB then encode (idB ++ 0x3A :: textA)
    else encode (textA ++ 0x3A :: idB)

def x3dhKDF (dhConcat : Bytes) (idA : Option Json.Value) (idB : JsString) : Option Bytes :=
  (x3dhSalt platform idA idB).map fun salt =>
    prim.hkdf (List.replicate 32 0xFF ++ dhConcat) (some salt) x3dhHkdfInfo

/-- The fourth share of the sender; a one-time prekey of another length is left out. -/
def oneTimeShare (ekPriv : FixedBytes 32) : Option Bytes -> Option Bytes
  | some pub => if pub.length = x25519Len then prim.getSharedSecret ekPriv pub else some []
  | none => some []

def x3dhInitiate (ekPriv identityPriv : FixedBytes 32)
    (recipientIdentityPub signedPreKeyPub : Bytes) (oneTimePreKeyPub : Option Bytes)
    (senderId recipientId : JsString) : Option (FixedBytes 32 × Bytes) := do
  let dh1 <- prim.getSharedSecret identityPriv signedPreKeyPub
  let dh2 <- prim.getSharedSecret ekPriv recipientIdentityPub
  let dh3 <- prim.getSharedSecret ekPriv signedPreKeyPub
  let dh4 <- oneTimeShare prim ekPriv oneTimePreKeyPub
  let sk <- x3dhKDF platform prim (dh1 ++ dh2 ++ dh3 ++ dh4)
    (some (Json.Value.string senderId)) recipientId
  return (prim.getPublicKey ekPriv, sk)

def respondShare (ephemeralPub : Bytes) : Option (FixedBytes 32) -> Option Bytes
  | some priv => prim.getSharedSecret priv ephemeralPub
  | none => some []

/-- `x3dhRespond`; the private keys of a store all have the right length. -/
def x3dhRespond (identityPriv : FixedBytes 32) (senderIdentityPub : Bytes)
    (signedPreKeyPriv : FixedBytes 32) (oneTimePreKeyPriv : Option (FixedBytes 32))
    (ephemeralPub : Bytes) (senderId : Option Json.Value) (recipientId : JsString) :
    Option Bytes := do
  if ephemeralPub.length ≠ x25519Len then none
  else
    let dh1 <- prim.getSharedSecret signedPreKeyPriv senderIdentityPub
    let dh2 <- prim.getSharedSecret identityPriv ephemeralPub
    let dh3 <- prim.getSharedSecret signedPreKeyPriv ephemeralPub
    let dh4 <- respondShare prim ephemeralPub oneTimePreKeyPriv
    x3dhKDF platform prim (dh1 ++ dh2 ++ dh3 ++ dh4) senderId recipientId

/-!
# Version 2
-/

def vName : JsString := ofText ['v']

def ekName : JsString := ofText ['e', 'k']

def spkIdName : JsString := ofText ['s', 'p', 'k', '_', 'i', 'd']

def opkIdName : JsString := ofText ['o', 'p', 'k', '_', 'i', 'd']

def v2Header (ephemeralPubB64 : JsString) (spkId : Option Json.Value)
    (opkId : Option JsString) : Json.Value :=
  Json.literalObject
    [(vName, some (Json.Value.number (Json.Number.finite 2))),
      (ekName, some (Json.Value.string ephemeralPubB64)),
      (spkIdName, spkId),
      (opkIdName, some (Json.orNull (opkId.map Json.Value.string)))]

def v2HeaderBytes (ephemeralPubB64 : JsString) (spkId : Option Json.Value)
    (opkId : Option JsString) : Bytes :=
  Text.utf8 (Json.stringify platform.numerals (v2Header ephemeralPubB64 spkId opkId))

def v2Aad (sender recipient session : JsString) (headerBytes : Bytes) : Bytes :=
  aad sender recipient session ++ headerBytes

def relayBlobVersion (blobB64 : JsString) : Option UInt8 :=
  (atob blobB64).bind List.head?

def sealRelayBlobV2 (nonce : FixedBytes 24) (plaintext key : Bytes)
    (ephemeralPub : FixedBytes 32) (signedPreKeyId : Option Json.Value)
    (oneTimePreKeyId : Option JsString) (sender recipient session : JsString) :
    Option JsString :=
  let header := v2HeaderBytes platform (bytesToB64 ephemeralPub.toBytes) signedPreKeyId
    oneTimePreKeyId
  if 0xffff < header.length then none
  else
    let sealed := prim.encrypt key nonce.toBytes (v2Aad sender recipient session header) plaintext
    some (bytesToB64 (boxVersionV2 :: UInt8.ofNat (header.length / 256) ::
      UInt8.ofNat header.length :: header ++ nonce.toBytes ++ sealed))

structure ParsedRelayBlobV2 where
  ephemeralPub : Bytes
  signedPreKeyId : JsString
  oneTimePreKeyId : Option Json.Value
  headerBytes : Bytes
  nonce : Bytes
  sealed : Bytes

/-- `null` and `undefined` are one to `??`. -/
def orAbsent : Option Json.Value -> Option Json.Value
  | some Json.Value.null => none
  | v => v

def readV2Header (hdr : Json.Value) : Option (Bytes × JsString × Option Json.Value) :=
  if Json.asNumber (hdr.get vName) = some (Json.Number.finite 2) then
    match Json.asString (hdr.get ekName), Json.asString (hdr.get spkIdName) with
    | some ek, some spkId =>
        match atob ek with
        | some ephemeralPub =>
            if ephemeralPub.length = x25519Len then
              some (ephemeralPub, spkId, orAbsent (hdr.get opkIdName))
            else none
        | none => none
    | _, _ => none
  else none

def parseRelayBlobV2 (blobB64 : JsString) : Option ParsedRelayBlobV2 :=
  match atob blobB64 with
  | some (version :: high :: low :: rest) =>
      let headerLen := high.toNat * 256 + low.toNat
      if version ≠ boxVersionV2 then none
      else if rest.length < headerLen + nonceLen + tagLen then none
      else
        let headerBytes := rest.take headerLen
        match (Json.parse platform.numerals (decode headerBytes)).bind readV2Header with
        | some (ephemeralPub, signedPreKeyId, oneTimePreKeyId) =>
            some
              { ephemeralPub := ephemeralPub
                signedPreKeyId := signedPreKeyId
                oneTimePreKeyId := oneTimePreKeyId
                headerBytes := headerBytes
                nonce := (rest.drop headerLen).take nonceLen
                sealed := rest.drop (headerLen + nonceLen) }
        | none => none
  | _ => none

def openRelayBlobV2 (parsed : ParsedRelayBlobV2) (key : Bytes)
    (sender recipient session : JsString) : Option Bytes :=
  prim.decrypt key parsed.nonce (v2Aad sender recipient session parsed.headerBytes)
    parsed.sealed

/-!
# Prekeys
-/

/-- The unit that `newKeyID` writes for one of base64. -/
def urlUnit (u : UInt16) : UInt16 :=
  if u = 0x2B then 0x2D else if u = 0x2F then 0x5F else u

/-- `newKeyID` of the twelve random bytes, which need no padding. -/
def newKeyID (random : FixedBytes 12) : JsString :=
  (bytesToB64 random.toBytes).map urlUnit

/-- `PreKeyStore`: the private halves, and the ids under which they were published. -/
structure PreKeyStore where
  signedId : JsString
  signedPriv : FixedBytes 32
  opks : JsString -> Option (FixedBytes 32)
  signedId_generated : exists random, signedId = newKeyID random
  opks_generated : forall id, (opks id).isSome -> exists random, id = newKeyID random

namespace PreKeyStore

def signedPreKeyPriv (store : PreKeyStore) (id : JsString) : Option (FixedBytes 32) :=
  if id = store.signedId then some store.signedPriv else none

def oneTimePreKeyPriv (store : PreKeyStore) : Json.Value -> Option (FixedBytes 32)
  | Json.Value.string id => store.opks id
  | _ => none

def consumeOneTimePreKey (store : PreKeyStore) : Json.Value -> PreKeyStore
  | Json.Value.string id =>
      { store with
        opks := Function.update store.opks id none
        opks_generated := by
          intro other hother
          by_cases hid : other = id
          · rw [hid, Function.update_self] at hother
            exact nomatch hother
          · rw [Function.update_of_ne hid] at hother
            exact store.opks_generated other hother }
  | _ => store

end PreKeyStore

/-!
# Stand-ins for the packages

Primitives that keep the promises, simple enough to be computed with: the shared secret is
the exclusive or of the keys, and the tag is a checksum.
-/

def sampleTag (key nonce aad plaintext : Bytes) : Bytes :=
  List.replicate 16 (key ++ nonce ++ aad ++ plaintext).sum

def samplePrimitives : Primitives where
  getPublicKey := fun priv => priv
  getSharedSecret := fun priv pub =>
    if pub.length = 32 then some (List.zipWith (· ^^^ ·) priv.toBytes pub) else none
  hkdf := fun ikm salt info => ikm ++ salt.getD [] ++ info
  encrypt := fun key nonce aad plaintext => plaintext ++ sampleTag key nonce aad plaintext
  decrypt := fun key nonce aad sealed =>
    let plaintext := sealed.take (sealed.length - 16)
    if sealed = plaintext ++ sampleTag key nonce aad plaintext then some plaintext else none

theorem length_sampleTag (key nonce aad plaintext : Bytes) :
    (sampleTag key nonce aad plaintext).length = 16 :=
  List.length_replicate

theorem samplePrimitives_lawful : samplePrimitives.Lawful where
  shared_comm := by
    intro a b
    simp only [samplePrimitives, a.length_eq, b.length_eq]
    rw [List.zipWith_comm]
    simp only [UInt8.xor_comm]
  shared_isSome := by
    intro a b
    simp only [samplePrimitives, b.length_eq]
    rfl
  length_of_shared := by
    intro a pub h
    simp only [samplePrimitives] at h
    split at h
    · assumption
    · exact nomatch h
  length_encrypt := by
    intro key nonce aad plaintext
    simp only [samplePrimitives, List.length_append, length_sampleTag]
  decrypt_encrypt := by
    intro key nonce aad plaintext
    have htake : (plaintext ++ sampleTag key nonce aad plaintext).take
        ((plaintext ++ sampleTag key nonce aad plaintext).length - 16) = plaintext := by
      rw [List.length_append, length_sampleTag, Nat.add_sub_cancel, List.take_left]
    simp only [samplePrimitives, htake]
    rw [if_pos trivial]
  encrypt_of_decrypt := by
    intro key nonce aad sealed plaintext h
    simp only [samplePrimitives] at h ⊢
    split at h
    case isTrue hsealed =>
      cases h
      exact hsealed
    case isFalse => exact nomatch h

def samplePlatform : Platform where
  numerals := Json.wholeNumerals
  above := fun id other =>
    match id with
    | some (Json.Value.string id) => decide (other < id)
    | _ => false
  above_string := fun _ _ => rfl

end RelayBox
end Client
end Ephor
