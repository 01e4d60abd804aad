import Ephor.Client.Relay
import Ephor.Client.RelaySeal

/-!
# What the relay delivers

A payload that falls back to the relay goes through JSON, a sealed blob and base64, with a
limit on the text of the blob and another one on the text that was sealed.  Strings come out
as they went in if what JSON makes of them stays within both limits; an `ArrayBuffer`, a
view or a `Blob` never does, since JSON makes something else of it.
-/

namespace Ephor
namespace Client
namespace Relay

open Foundation
open Foundation.WebText
open Foundation.Json
open Foundation.Transition
open RelayBox
open Signaling (Environment Registry BoxKey PreKey OneTimePreKey Moment Seal sealFor sealBlob
  toName fromName nonceName sigName sessionName truthyMember verifyFrame verifyRaw)

variable {Key : Type}

/-!
# Payloads
-/

/-- What JSON sees of a view: the elements of a typed array of numbers, one by one, or those
of an array of big integers, which it does not accept. -/
inductive Elements where
  | values (elements : List Value)
  | bigints (count : Nat)

inductive Datum where
  | text (s : JsString)
  | arrayBuffer (bytes : Bytes)
  | view (bytes : Bytes) (elements : Elements)
  | blob (bytes : Bytes)

def elementName (i : Nat) : JsString :=
  ofText (Nat.toDigits 10 i)

/-- The value that `JSON.stringify` writes for a payload, unless it throws. -/
def jsonDatum : Datum -> Option Value
  | Datum.text s => some (Value.string s)
  | Datum.arrayBuffer _ => some (Value.object [])
  | Datum.view _ (Elements.values elements) =>
      some (Value.object (elements.zipIdx.map fun element => (elementName element.2, element.1)))
  | Datum.view _ (Elements.bigints count) => if count = 0 then some (Value.object []) else none
  | Datum.blob _ => some (Value.object [])

/-- `_byteSize` of a payload; a `Blob` counts as its JSON text, which is `{}`. -/
def byteSize : Datum -> Nat
  | Datum.text s => (encode s).length
  | Datum.arrayBuffer bytes => bytes.length
  | Datum.view bytes _ => bytes.length
  | Datum.blob _ => 2

/-- The data of a `message` event: a string or another value of JSON, or an `ArrayBuffer`. -/
inductive Delivered where
  | json (data : Option Value)
  | binary (bytes : Bytes)

/-- What the data channel, whose binary type is `arraybuffer`, delivers. -/
def channelDelivery : Datum -> Delivered
  | Datum.text s => Delivered.json (some (Value.string s))
  | Datum.arrayBuffer bytes => Delivered.binary bytes
  | Datum.view bytes _ => Delivered.binary bytes
  | Datum.blob bytes => Delivered.binary bytes

/-!
# The sender
-/

/-- The sender of a payload, with what it has chosen to seal for the recipient. -/
structure Depositor (Key : Type) where
  id : JsString
  boxPriv : FixedBytes 32
  sign : Bytes -> Bytes
  registry : Registry Key
  box : BoxKey Key
  preKey : Option (PreKey Key)
  oneTime : Option OneTimePreKey

/-- The sender's environment: the recipient's with its own id and box key. -/
def Depositor.environment (d : Depositor Key) (env : Environment Key) : Environment Key :=
  { env with peerId := d.id, boxPriv := d.boxPriv }

def payload (env : Environment Key) (data : Value) : Bytes :=
  Text.utf8 (stringify env.platform.numerals
    (Value.object [(sessionName, Value.string env.session), (dataName, data)]))

/-- `_relayDeposit` to the recipient: the envelope, if nothing throws. -/
def relayDeposit (env : Environment Key) (d : Depositor Key) (m : Moment) (nonce : JsString)
    (datum : Datum) : Option Value := do
  let data <- jsonDatum datum
  let sealed <- sealFor (d.environment env) m d.registry env.peerId (payload env data) d.box
    d.oneTime d.preKey
  let epk := Value.string (publicB64 env.prim d.boxPriv)
  let signingMsg := sigMsg env.platform env.peerId (some (Value.string d.id))
    (some (Value.string nonce)) sealed.blob epk
  return Value.object
    [(toName, Value.string env.peerId), (fromName, Value.string d.id),
      (blobName, Value.string sealed.blob), (nonceName, Value.string nonce),
      (sigName, Value.string (btoa (d.sign (Text.utf8 signingMsg)))), (epkName, epk)]

/-- What the sender may hold of the recipient's prekeys: none, its signed prekey, or also one
of its one-time prekeys. -/
inductive Bundle (prim : Primitives) (preKeys : PreKeyStore) :
    Option (PreKey Key) -> Option OneTimePreKey -> Prop where
  | v1 : Bundle prim preKeys none none
  | v2 (sig : JsString) (under : Key) :
      Bundle prim preKeys
        (some ⟨some (Value.string preKeys.signedId), publicB64 prim preKeys.signedPriv, sig,
          under⟩) none
  | oneTime (sig : JsString) (under : Key) {id : JsString} {priv : FixedBytes 32}
      (hopk : preKeys.opks id = some priv) :
      Bundle prim preKeys
        (some ⟨some (Value.string preKeys.signedId), publicB64 prim preKeys.signedPriv, sig,
          under⟩) (some ⟨id, publicB64 prim priv⟩)

/-- Both clients are honest and know each other's keys; without a prekey the recipient is not
pinned. -/
structure Depositor.Honest (env : Environment Key) (s : State Key) (d : Depositor Key) :
    Prop where
  known : exists key, s.peerKeys d.id = some key ∧
    forall message, env.ecdsa.verify key (d.sign message) message = true
  signature : forall message, d.sign message ≠ []
  box : d.box.raw = Value.string (publicB64 env.prim env.boxPriv)
  pinned : d.preKey = none -> d.registry.peerV2Capable env.peerId = false
  bundle : Bundle env.prim s.preKeys d.preKey d.oneTime

/-- The relay hands out the envelope as it was deposited, under any id. -/
def Forwards (envelope blob : Value) : Prop :=
  forall name, name ∈ [fromName, blobName, nonceName, sigName, epkName] ->
    blob.get name = envelope.get name

/-- The payload arrives through the relay as it would through the data channel. -/
def Transparent (env : Environment Key) (s : State Key) (d : Depositor Key) (m : Moment)
    (nonce : JsString) (datum : Datum) : Prop :=
  exists envelope, relayDeposit env d m nonce datum = some envelope ∧
    forall blob, Forwards envelope blob ->
      exists message,
        (after (step env) s (poll s.started blob)).messages = s.messages ++ [message] ∧
          message.sender = some (Value.string d.id) ∧
          Delivered.json message.data = channelDelivery datum

/-!
# Sizes
-/

def overhead (preKey : Option (PreKey Key)) (oneTime : Option OneTimePreKey) : Nat :=
  match preKey with
  | none => 41
  | some _ => if oneTime.isSome then 158 else 144

def maxBlobBytes : Nat :=
  maxRelayBlobB64 / 4 * 3

/-- The text of a payload in the given measure: the two names with their punctuation take
twenty characters. -/
def payloadSize (weight : Char -> Nat) (session text : JsString) : Nat :=
  20 + quotedSize weight session + quotedSize weight text

/-- The JSON text stays within the limit on its code units, and the blob within its own. -/
def Fits (session : JsString) (d : Depositor Key) (text : JsString) : Prop :=
  payloadSize unitWeight session text <= maxPayloadBytes ∧
    overhead d.preKey d.oneTime + payloadSize Char.utf8Size session text <= maxBlobBytes

instance (session : JsString) (d : Depositor Key) (text : JsString) :
    Decidable (Fits session d text) :=
  inferInstanceAs (Decidable (_ ∧ _))

theorem length_le_maxRelayBlobB64 (n : Nat) :
    (n + 2) / 3 * 4 <= maxRelayBlobB64 ↔ n <= maxBlobBytes := by
  simp only [maxBlobBytes, maxRelayBlobB64, maxPayloadBytes, relayEnvelopeOverhead]
  omega

theorem textSize_payload {weight : Char -> Nat} (h : WeighsAscii weight) (numerals : Numerals)
    (session text : JsString) :
    textSize weight (stringify numerals
        (Value.object [(sessionName, Value.string session), (dataName, Value.string text)])) =
      payloadSize weight session text := by
  have hplain : [sessionName, dataName].all (fun name => name.all isPlain) = true := by
    decide
  have hsession : quotedSize weight sessionName = 9 :=
    quotedSize_plain h (List.all_eq_true.mp (List.all_eq_true.mp hplain sessionName
      List.mem_cons_self))
  have hdata : quotedSize weight dataName = 6 :=
    quotedSize_plain h (List.all_eq_true.mp (List.all_eq_true.mp hplain dataName
      (List.mem_cons_of_mem _ List.mem_cons_self)))
  rw [textSize_object h]
  simp only [List.map_cons, List.map_nil, List.sum_cons, List.sum_nil, memberSize, hsession,
    hdata, stringify, textSize_quote h, payloadSize]
  omega

theorem length_payload (env : Environment Key) (text : JsString) :
    (payload env (Value.string text)).length = payloadSize Char.utf8Size env.session text := by
  rw [payload, length_utf8, textSize_payload weighsAscii_utf8Size]

/-!
# From one client to the other
-/

/-- What a blob opens to for a recipient that reads it with the sender's box key and id. -/
def OpensTo (env : Environment Key) (preKeys : PreKeyStore) (d : Depositor Key)
    (blobB64 : JsString) (plaintext : Bytes) : Prop :=
  forall e : Envelope, e.blobB64 = blobB64 ->
    e.epk = Value.string (publicB64 env.prim d.boxPriv) ->
      e.sender = some (Value.string d.id) ->
        exists left, openBlob env preKeys e = some (plaintext, left)

variable {env : Environment Key} {d : Depositor Key} {s : State Key} {nonce blobB64 : JsString}
    {blob : Value}

theorem sealBlob_open_v1 (hlawful : env.prim.Lawful) (preKeys : PreKeyStore)
    (hbox : d.box.raw = Value.string (publicB64 env.prim env.boxPriv)) (m : Moment)
    (plaintext : Bytes) (oneTime : Option OneTimePreKey) :
    exists blob, sealBlob (d.environment env) m env.peerId plaintext d.box oneTime none =
        some blob ∧
      blob.length = (41 + plaintext.length + 2) / 3 * 4 ∧
      OpensTo env preKeys d blob plaintext := by
  rcases @sealRelayBlob_open env.platform env.prim hlawful m.nonce plaintext d.boxPriv
    env.boxPriv d.id env.peerId env.session with ⟨blob, hseal, hlength, hversion, hopen⟩
  refine ⟨blob, ?_, hlength, ?_⟩
  · rw [sealBlob, hbox]
    exact hseal
  · intro e hblob hepk hsender
    refine ⟨preKeys, ?_⟩
    have hother : Not (relayBlobVersion e.blobB64 = some boxVersionV2) := by
      rw [hblob, hversion]
      decide
    have hsenderText : templateText env.platform.numerals e.sender = some d.id := by
      rw [hsender]
      rfl
    rw [openBlob, hsenderText]
    simp only [Option.bind_eq_bind, Option.bind_some]
    rw [if_neg hother, hblob, hepk, hopen]
    rfl

/-- The private half of the one-time prekey that a sender has claimed, if it has. -/
inductive OneTimeHeld (prim : Primitives) (preKeys : PreKeyStore) :
    Option OneTimePreKey -> Option (FixedBytes 32) -> Prop where
  | absent : OneTimeHeld prim preKeys none none
  | held {id : JsString} {priv : FixedBytes 32} (hopk : preKeys.opks id = some priv) :
      OneTimeHeld prim preKeys (some ⟨id, publicB64 prim priv⟩) (some priv)

namespace OneTimeHeld

variable {prim : Primitives} {preKeys : PreKeyStore} {oneTime : Option OneTimePreKey}
  {opkPriv : Option (FixedBytes 32)}

theorem oneTimePub (h : OneTimeHeld prim preKeys oneTime opkPriv) :
    Signaling.oneTimePub oneTime = some (oneTimePublic prim opkPriv) := by
  cases h with
  | absent => rfl
  | @held id priv hopk =>
      have hpub : atob (publicB64 prim priv) = some (prim.getPublicKey priv).toBytes :=
        atob_btoa _
      rw [Signaling.oneTimePub, hpub]
      rfl

theorem generatedId (h : OneTimeHeld prim preKeys oneTime opkPriv) {id : JsString}
    (hid : oneTime.map OneTimePreKey.id = some id) : GeneratedId id := by
  cases h with
  | absent => exact nomatch hid
  | @held held priv hopk =>
      cases hid
      exact preKeys.opks_generated held (Option.isSome_of_mem hopk)

theorem oneTimePriv (h : OneTimeHeld prim preKeys oneTime opkPriv) :
    Relay.oneTimePriv preKeys (((oneTime.map OneTimePreKey.id).map Value.string).filter
      fun id => truthy (some id)) = some opkPriv := by
  cases h with
  | absent => rfl
  | @held id priv hopk =>
      have htruthy : truthy (some (Value.string id)) = true := by
        rcases preKeys.opks_generated id (Option.isSome_of_mem hopk) with ⟨random, hrandom⟩
        apply bne_iff_ne.mpr
        intro hnil
        have hlength := length_newKeyID random
        rw [<- hrandom, hnil] at hlength
        exact nomatch hlength
      rw [Option.map_some, Option.map_some, Option.filter_some, if_pos htruthy,
        Relay.oneTimePriv, PreKeyStore.oneTimePreKeyPriv, hopk]
      rfl

end OneTimeHeld

theorem sealBlob_open_v2 (hlawful : env.prim.Lawful) {preKeys : PreKeyStore}
    (hbox : d.box.raw = Value.string (publicB64 env.prim env.boxPriv)) (m : Moment)
    (plaintext : Bytes) (sig : JsString) (under : Key) {oneTime : Option OneTimePreKey}
    {opkPriv : Option (FixedBytes 32)} (hheld : OneTimeHeld env.prim preKeys oneTime opkPriv) :
    exists blob, sealBlob (d.environment env) m env.peerId plaintext d.box oneTime
        (some ⟨some (Value.string preKeys.signedId), publicB64 env.prim preKeys.signedPriv, sig,
          under⟩) = some blob ∧
      blob.length =
        (43 + headerLength (oneTime.map OneTimePreKey.id) + plaintext.length + 2) / 3 * 4 ∧
      OpensTo env preKeys d blob plaintext := by
  rcases @x3dh_agree env.platform env.prim hlawful m.ephemeral d.boxPriv env.boxPriv
    preKeys.signedPriv opkPriv d.id env.peerId with ⟨sk, hinitiate, hrespond⟩
  rcases @sealRelayBlobV2_open env.platform env.prim hlawful m.nonce plaintext sk m.ephemeral
    preKeys.signedId preKeys.signedId_generated (oneTime.map OneTimePreKey.id)
    (fun _ hid => hheld.generatedId hid) d.id env.peerId env.session with
    ⟨blob, parsed, hseal, hlength, hversion, hparse, hek, hspk, hopk, hopen⟩
  refine ⟨blob, ?_, hlength, ?_⟩
  · have hspkPub : atob (publicB64 env.prim preKeys.signedPriv) =
        some (env.prim.getPublicKey preKeys.signedPriv).toBytes := atob_btoa _
    have hboxPub : b64ToBytes (d.environment env).platform d.box.raw =
        some (env.prim.getPublicKey env.boxPriv).toBytes := by
      rw [hbox]
      exact b64ToBytes_publicB64 _ _ _
    rw [sealBlob, hboxPub]
    simp only [Option.bind_eq_bind, Option.bind_some, hspkPub, hheld.oneTimePub]
    change (x3dhInitiate env.platform env.prim m.ephemeral d.boxPriv
      (env.prim.getPublicKey env.boxPriv).toBytes
      (env.prim.getPublicKey preKeys.signedPriv).toBytes (oneTimePublic env.prim opkPriv) d.id
      env.peerId).bind _ = some blob
    rw [hinitiate, Option.bind_some]
    exact hseal
  · intro e hblob hepk hsender
    refine ⟨consumed preKeys (oneTimeId parsed), ?_⟩
    have hsenderText : templateText env.platform.numerals e.sender = some d.id := by
      rw [hsender]
      rfl
    have hspkPriv : preKeys.signedPreKeyPriv parsed.signedPreKeyId =
        some preKeys.signedPriv := by
      rw [hspk]
      exact if_pos rfl
    have hopkPriv : oneTimePriv preKeys (oneTimeId parsed) = some opkPriv := by
      rw [oneTimeId, hopk]
      exact hheld.oneTimePriv
    rw [openBlob, hsenderText]
    simp only [Option.bind_eq_bind, Option.bind_some]
    rw [if_pos (hblob ▸ hversion), hblob, hepk, hsender, hparse]
    simp only [Option.bind_some, hspkPriv, hopkPriv, b64ToBytes_publicB64, hek, hrespond, hopen]
    rfl

theorem sealFor_open (hlawful : env.prim.Lawful) (h : d.Honest env s) (m : Moment)
    (plaintext : Bytes) :
    exists sealed, sealFor (d.environment env) m d.registry env.peerId plaintext d.box d.oneTime
        d.preKey = some sealed ∧
      sealed.blob.length = (overhead d.preKey d.oneTime + plaintext.length + 2) / 3 * 4 ∧
      OpensTo env s.preKeys d sealed.blob plaintext := by
  have hblob : exists blob, sealBlob (d.environment env) m env.peerId plaintext d.box d.oneTime
        d.preKey = some blob ∧
      blob.length = (overhead d.preKey d.oneTime + plaintext.length + 2) / 3 * 4 ∧
      OpensTo env s.preKeys d blob plaintext := by
    have hbundle := h.bundle
    generalize d.preKey = preKey at hbundle ⊢
    generalize d.oneTime = oneTime at hbundle ⊢
    cases hbundle with
    | v1 => exact sealBlob_open_v1 hlawful s.preKeys h.box m plaintext none
    | v2 sig under =>
        exact sealBlob_open_v2 hlawful h.box m plaintext sig under OneTimeHeld.absent
    | oneTime sig under hopk =>
        exact sealBlob_open_v2 hlawful h.box m plaintext sig under (OneTimeHeld.held hopk)
  rcases hblob with ⟨blob, hseal, hlength, hopen⟩
  refine ⟨⟨env.peerId, d.box, d.preKey, d.oneTime, blob⟩, ?_, hlength, hopen⟩
  have hallowed : Not ((d.preKey.isNone && d.registry.peerV2Capable env.peerId) = true) := by
    intro hpinned
    rw [Bool.and_eq_true, Option.isNone_iff_eq_none] at hpinned
    rw [h.pinned hpinned.1] at hpinned
    exact nomatch hpinned.2
  rw [sealFor, if_neg hallowed, hseal]
  rfl

theorem decode_payload (env : Environment Key) (data : Value) :
    decode (payload env data) = stringify env.platform.numerals
      (Value.object [(sessionName, Value.string env.session), (dataName, data)]) :=
  decode_utf8 (by decide)

theorem readPayload_text (env : Environment Key) (text : JsString) :
    readPayload env (payload env (Value.string text)) =
      if maxPayloadBytes < payloadSize unitWeight env.session text then none
      else some (some (Value.string text)) := by
  have hparse : parse env.platform.numerals (stringify env.platform.numerals
      (Value.object [(sessionName, Value.string env.session),
        (dataName, Value.string text)])) =
      some (Value.object [(sessionName, Value.string env.session),
        (dataName, Value.string text)]) := by
    apply parse_stringify
    · intro member hmem
      simp only [List.mem_cons, List.not_mem_nil, or_false] at hmem
      rcases hmem with rfl | rfl
      · exact readsBack_string _ _
      · exact readsBack_string _ _
    · have hplain : forall name, name ∈ [sessionName, dataName] -> arrayIndex? name = none := by
        decide
      intro member hmem
      exact hplain member.1 (List.mem_map_of_mem hmem)
    · change [sessionName, dataName].Nodup
      decide
  have hsize := textSize_payload weighsAscii_unitWeight env.platform.numerals env.session text
  rw [readPayload, decode_payload, length_ofText, hsize, hparse]
  have hsession : asString ((Value.object [(sessionName, Value.string env.session),
      (dataName, Value.string text)]).get sessionName) = some env.session :=
    rfl
  have hdata : (Value.object [(sessionName, Value.string env.session),
      (dataName, Value.string text)]).get dataName = some (Value.string text) :=
    rfl
  simp only [hsession, hdata, if_true]

structure Envelops (env : Environment Key) (d : Depositor Key) (nonce blobB64 : JsString)
    (blob : Value) : Prop where
  hasSender : blob.get fromName = some (Value.string d.id)
  hasText : blob.get blobName = some (Value.string blobB64)
  hasNonce : blob.get nonceName = some (Value.string nonce)
  hasSig : blob.get sigName = some (Value.string (btoa (d.sign (Text.utf8 (sigMsg env.platform
    env.peerId (some (Value.string d.id)) (some (Value.string nonce)) blobB64
    (Value.string (publicB64 env.prim d.boxPriv)))))))
  hasEpk : blob.get epkName = some (Value.string (publicB64 env.prim d.boxPriv))

theorem truthy_btoa {b : Bytes} (h : b ≠ []) : truthy (some (Value.string (btoa b))) = true := by
  apply bne_iff_ne.mpr
  intro hnil
  have hlength := length_btoa b
  have hpos := List.length_pos_iff.mpr h
  rw [hnil, List.length_nil] at hlength
  omega

theorem readEnvelope_envelops (h : Envelops env d nonce blobB64 blob) :
    readEnvelope blob =
      if blobB64.length <= maxRelayBlobB64 then
        some ⟨blob, blobB64, Value.string (publicB64 env.prim d.boxPriv)⟩
      else none := by
  have htruthy : truthy (some (Value.string (publicB64 env.prim d.boxPriv))) = true :=
    truthy_btoa (FixedBytes.toBytes_ne_nil _)
  have hepk : truthyMember blob epkName = some (Value.string (publicB64 env.prim d.boxPriv)) := by
    rw [truthyMember, h.hasEpk, Option.filter_some, if_pos htruthy]
  rw [readEnvelope, h.hasText, hepk]
  rfl

theorem passes_envelops (hd : d.Honest env s) (hnonce : nonce ≠ [])
    (h : Envelops env d nonce blobB64 blob) :
    exists key, startBlob s.peerKeys
        ⟨blob, blobB64, Value.string (publicB64 env.prim d.boxPriv)⟩ =
          some (BlobStage.verifying key) ∧
      passes env ⟨blob, blobB64, Value.string (publicB64 env.prim d.boxPriv)⟩ key = true := by
  rcases hd.known with ⟨key, hkey, hverify⟩
  have hsigTruthy := truthy_btoa (hd.signature (Text.utf8 (sigMsg env.platform
    env.peerId (some (Value.string d.id)) (some (Value.string nonce)) blobB64
    (Value.string (publicB64 env.prim d.boxPriv)))))
  have hnonceTruthy : truthy (some (Value.string nonce)) = true := bne_iff_ne.mpr hnonce
  have hpeerKey : Envelope.peerKey
      ⟨blob, blobB64, Value.string (publicB64 env.prim d.boxPriv)⟩ s.peerKeys = some key := by
    rw [Envelope.peerKey, Envelope.sender, h.hasSender]
    exact hkey
  refine ⟨some key, ?_, ?_⟩
  · rw [startBlob, h.hasSig, h.hasNonce, hsigTruthy, hnonceTruthy, hpeerKey]
    rfl
  · have hsig : truthyMember blob sigName = some (Value.string (btoa (d.sign (Text.utf8 (sigMsg
        env.platform env.peerId (some (Value.string d.id)) (some (Value.string nonce)) blobB64
        (Value.string (publicB64 env.prim d.boxPriv))))))) := by
      rw [truthyMember, h.hasSig, Option.filter_some, if_pos hsigTruthy]
    rw [passes, hsig, Envelope.sender, h.hasSender, h.hasNonce]
    simp only [verifyFrame, verifyRaw]
    have hread : forall b, b64ToBytes env.platform (Value.string (btoa b)) = some b :=
      fun b => atob_btoa b
    rw [hread]
    exact hverify _

theorem process_envelops (hd : d.Honest env s) {text : JsString} (hnonce : nonce ≠ [])
    (hopens : OpensTo env s.preKeys d blobB64 (payload env (Value.string text)))
    (h : Envelops env d nonce blobB64 blob) :
    (processRelayBlob env s.peerKeys s.preKeys blob).map
        (fun message => (message.sender, message.data)) =
      if blobB64.length <= maxRelayBlobB64 ∧
          payloadSize unitWeight env.session text <= maxPayloadBytes then
        some (some (Value.string d.id), some (Value.string text))
      else none := by
  rw [processRelayBlob, readEnvelope_envelops h]
  by_cases hlength : blobB64.length <= maxRelayBlobB64
  · rcases passes_envelops hd hnonce h with ⟨key, hstart, hpasses⟩
    rcases hopens ⟨blob, blobB64, Value.string (publicB64 env.prim d.boxPriv)⟩ rfl rfl h.hasSender
      with ⟨left, hopen⟩
    rw [if_pos hlength, Option.bind_some, hstart, Option.bind_some]
    simp only [hpasses, if_true, finishBlob, hopen]
    rw [readPayload_text]
    by_cases hunits : payloadSize unitWeight env.session text <= maxPayloadBytes
    · rw [if_neg (Nat.not_lt.mpr hunits), if_pos ⟨hlength, hunits⟩, Envelope.sender, h.hasSender]
      rfl
    · rw [if_pos (Nat.lt_of_not_le hunits), if_neg fun hboth => hunits hboth.2]
      rfl
  · rw [if_neg hlength, if_neg fun hboth => hlength hboth.1]
    rfl

/-!
# Transparency
-/

theorem envelops_of_forwards {envelope : Value} (h : Envelops env d nonce blobB64 envelope)
    (hforwards : Forwards envelope blob) : Envelops env d nonce blobB64 blob where
  hasSender := (hforwards fromName (by decide)).trans h.hasSender
  hasText := (hforwards blobName (by decide)).trans h.hasText
  hasNonce := (hforwards nonceName (by decide)).trans h.hasNonce
  hasSig := (hforwards sigName (by decide)).trans h.hasSig
  hasEpk := (hforwards epkName (by decide)).trans h.hasEpk

theorem relayDeposit_text (hlawful : env.prim.Lawful) (hd : d.Honest env s) (m : Moment)
    (nonce text : JsString) :
    exists envelope blobB64, relayDeposit env d m nonce (Datum.text text) = some envelope ∧
      Envelops env d nonce blobB64 envelope ∧
      (blobB64.length <= maxRelayBlobB64 ↔ overhead d.preKey d.oneTime +
        payloadSize Char.utf8Size env.session text <= maxBlobBytes) ∧
      OpensTo env s.preKeys d blobB64 (payload env (Value.string text)) := by
  rcases sealFor_open hlawful hd m (payload env (Value.string text)) with
    ⟨sealed, hsealed, hlength, hopens⟩
  have hdeposit : exists envelope, relayDeposit env d m nonce (Datum.text text) = some envelope ∧
      Envelops env d nonce sealed.blob envelope := by
    simp only [relayDeposit, jsonDatum, Option.bind_eq_bind, Option.bind_some, hsealed]
    exact ⟨_, rfl, rfl, rfl, rfl, rfl, rfl⟩
  rcases hdeposit with ⟨envelope, hdeposit, henvelops⟩
  refine ⟨envelope, sealed.blob, hdeposit, henvelops, ?_, hopens⟩
  rw [hlength, length_payload]
  exact length_le_maxRelayBlobB64 _

theorem transparent_text_iff (hlawful : env.prim.Lawful) (hd : d.Honest env s) (m : Moment)
    (hnonce : nonce ≠ []) (text : JsString) :
    Transparent env s d m nonce (Datum.text text) ↔ Fits env.session d text := by
  rcases relayDeposit_text hlawful hd m nonce text with
    ⟨envelope, blobB64, hdeposit, henvelops, hlimit, hopens⟩
  have hprocess : forall blob, Forwards envelope blob ->
      (processRelayBlob env s.peerKeys s.preKeys blob).map
          (fun message => (message.sender, message.data)) =
        if Fits env.session d text then
          some (some (Value.string d.id), some (Value.string text))
        else none := by
    intro blob hforwards
    rw [process_envelops hd hnonce hopens (envelops_of_forwards henvelops hforwards)]
    have hfits : (blobB64.length <= maxRelayBlobB64 ∧
        payloadSize unitWeight env.session text <= maxPayloadBytes) ↔ Fits env.session d text := by
      rw [hlimit, Fits, and_comm]
    exact if_congr hfits rfl rfl
  constructor
  · intro htransparent
    rcases htransparent with ⟨deposited, hdeposited, harrives⟩
    cases hdeposit.symm.trans hdeposited
    have hforwards : Forwards envelope envelope := fun _ _ => rfl
    rcases harrives envelope hforwards with ⟨message, hmessages, _, _⟩
    rw [poll_messages] at hmessages
    have hdispatched := List.append_cancel_left hmessages
    by_contra hfits
    have hnothing := hprocess envelope hforwards
    rw [if_neg hfits, Option.map_eq_none_iff] at hnothing
    rw [hnothing] at hdispatched
    exact nomatch hdispatched
  · intro hfits
    refine ⟨envelope, hdeposit, ?_⟩
    intro blob hforwards
    have harrived := hprocess blob hforwards
    rw [if_pos hfits, Option.map_eq_some_iff] at harrived
    rcases harrived with ⟨message, hmessage, hread⟩
    have hsender : message.sender = some (Value.string d.id) := congrArg Prod.fst hread
    have hdata : message.data = some (Value.string text) := congrArg Prod.snd hread
    refine ⟨message, ?_, hsender, ?_⟩
    · rw [poll_messages, hmessage]
      rfl
    · rw [hdata]
      rfl

theorem text_of_transparent {m : Moment} {datum : Datum} (h : Transparent env s d m nonce datum) :
    exists text, datum = Datum.text text := by
  rcases h with ⟨envelope, _, harrives⟩
  rcases harrives envelope (fun _ _ => rfl) with ⟨message, _, _, hdata⟩
  cases datum with
  | text text => exact ⟨text, rfl⟩
  | arrayBuffer bytes | view bytes elements | blob bytes => exact nomatch hdata

/--
A payload arrives through the relay as it would through the data channel exactly when it is
a string whose JSON text and whose blob keep within the limits.
-/
theorem transparent_iff_fits (env : Environment Key) (hlawful : env.prim.Lawful)
    (s : State Key) (d : Depositor Key) (hd : d.Honest env s) (m : Moment) (nonce : JsString)
    (hnonce : nonce ≠ []) (datum : Datum) :
    Transparent env s d m nonce datum ↔
      exists text, datum = Datum.text text ∧ Fits env.session d text := by
  constructor
  · intro htransparent
    rcases text_of_transparent htransparent with ⟨text, rfl⟩
    exact ⟨text, rfl, (transparent_text_iff hlawful hd m hnonce text).mp htransparent⟩
  · intro h
    rcases h with ⟨text, rfl, hfits⟩
    exact (transparent_text_iff hlawful hd m hnonce text).mpr hfits

def sampleDepositor : Depositor Bytes where
  id := Signaling.samplePeer
  boxPriv := FixedBytes.zero 32
  sign := fun message => Signaling.samplePoint ++ message
  registry := Registry.empty
  box := ⟨Value.string sampleBoxPubKey, Value.null, none⟩
  preKey := some
    ⟨some (Value.string samplePreKeys.signedId),
      publicB64 samplePrimitives samplePreKeys.signedPriv, [], Signaling.samplePoint⟩
  oneTime := some
    ⟨newKeyID (FixedBytes.zero 12), publicB64 samplePrimitives (FixedBytes.zero 32)⟩

theorem sampleDepositor_honest :
    sampleDepositor.Honest (Signaling.sampleEnvironment true)
      (State.initial sampleKeys samplePreKeys) where
  known := by
    have hkey : sampleKeys Signaling.samplePeer = some Signaling.samplePoint :=
      Function.update_self _ _ _
    refine ⟨Signaling.samplePoint, hkey, ?_⟩
    intro message
    exact beq_self_eq_true _
  signature := fun _ => List.cons_ne_nil _ _
  box := rfl
  pinned := fun h => nomatch h
  bundle := by
    have hopk : samplePreKeys.opks (newKeyID (FixedBytes.zero 12)) =
        some (FixedBytes.zero 32) := by
      simp only [samplePreKeys, Function.update_self]
    exact Bundle.oneTime [] Signaling.samplePoint hopk

theorem shortText_transparent :
    Transparent (Signaling.sampleEnvironment true) (State.initial sampleKeys samplePreKeys)
      sampleDepositor (Signaling.sampleMoment 5) (ofText ['n']) (Datum.text (ofText ['d'])) :=
  (transparent_iff_fits _ samplePrimitives_lawful _ _ sampleDepositor_honest _ _ (by decide) _).mpr
    ⟨ofText ['d'], rfl, by decide⟩

def largestText : JsString :=
  ofText (List.replicate maxPayloadBytes 'a')

theorem byteSize_largestText : byteSize (Datum.text largestText) = maxPayloadBytes := by
  have hweight : Char.utf8Size 'a' = 1 := by decide
  rw [byteSize, largestText, encode_ofText, length_utf8, textSize, List.map_replicate,
    List.sum_replicate_nat, hweight, Nat.mul_one]

theorem length_largestText : largestText.length = maxPayloadBytes := by
  have hweight : unitWeight 'a' = 1 := by decide
  rw [largestText, length_ofText, textSize, List.map_replicate, List.sum_replicate_nat, hweight,
    Nat.mul_one]

theorem quotedSize_largestText : quotedSize unitWeight largestText = maxPayloadBytes + 2 := by
  have hplain : forall u, u ∈ largestText -> isPlain u = true := by
    intro u hu
    rcases List.mem_flatMap.mp hu with ⟨c, hc, hunit⟩
    rw [List.eq_of_mem_replicate hc] at hunit
    cases List.mem_singleton.mp hunit
    decide
  rw [quotedSize_plain weighsAscii_unitWeight hplain, length_largestText]

/-- A buffer of one byte does not arrive, and neither does a string of the largest size. -/
theorem smallBuffer_largestText_lost :
    sampleDepositor.Honest (Signaling.sampleEnvironment true)
        (State.initial sampleKeys samplePreKeys) ∧
      forall datum, datum ∈ [Datum.arrayBuffer [1], Datum.text largestText] ->
        byteSize datum <= maxPayloadBytes ∧
          Not (Transparent (Signaling.sampleEnvironment true)
            (State.initial sampleKeys samplePreKeys) sampleDepositor (Signaling.sampleMoment 5)
            (ofText ['n']) datum) := by
  refine ⟨sampleDepositor_honest, ?_⟩
  intro datum hdatum
  simp only [List.mem_cons, List.not_mem_nil, or_false] at hdatum
  rcases hdatum with rfl | rfl
  · refine ⟨by decide, ?_⟩
    intro htransparent
    rcases text_of_transparent htransparent with ⟨text, htext⟩
    exact nomatch htext
  · refine ⟨Nat.le_of_eq byteSize_largestText, ?_⟩
    rw [transparent_text_iff samplePrimitives_lawful sampleDepositor_honest _ (by decide)]
    intro hfits
    have hunits := hfits.1
    rw [payloadSize, quotedSize_largestText] at hunits
    omega

end Relay
end Client
end Ephor
