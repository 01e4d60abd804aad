import Ephor.Client.Relay

/-!
# Relayed messages are authentic

A message from a peer whose signing key was stored when the signature check began was
signed by the holder of that key: the signature is over the recipient, the sender and the
blob, and the blob opens under the recipient's own keys to this session and this data.
Nothing that happens between the check and the end of the call can change that.
-/

namespace Ephor
namespace Client
namespace Relay

open Foundation
open Foundation.WebText
open Foundation.Json
open Foundation.Transition
open RelayBox
open Signaling (Environment toName fromName nonceName sigName sessionName idName truthyMember
  verifyFrame verifyRaw)

variable {Key : Type}

/-- What is sealed in a blob for a client of the given environment and prekeys. -/
inductive SealedFor (env : Environment Key) (preKeys : PreKeyStore) (sender : JsString)
    (epk : Value) (blobB64 : JsString) (plaintext : Bytes) : Prop where
  | v1 {pub key nonce : Bytes} (hpub : b64ToBytes env.platform epk = some pub)
      (hkey : deriveKey env.prim env.boxPriv pub = some key)
      (hblob : atob blobB64 = some (boxVersion :: nonce ++
        env.prim.encrypt key nonce (aad sender env.peerId env.session) plaintext))
  | v2 {pub sk : Bytes} {parsed : ParsedRelayBlobV2} {spkPriv : FixedBytes 32}
      {opkPriv : Option (FixedBytes 32)} {high low : UInt8}
      (hpub : b64ToBytes env.platform epk = some pub)
      (hspk : preKeys.signedPreKeyPriv parsed.signedPreKeyId = some spkPriv)
      (hopk : oneTimePriv preKeys (oneTimeId parsed) = some opkPriv)
      (hsk : x3dhRespond env.platform env.prim env.boxPriv pub spkPriv opkPriv
        parsed.ephemeralPub (some (Value.string sender)) env.peerId = some sk)
      (hparsed : parseRelayBlobV2 env.platform blobB64 = some parsed)
      (hblob : atob blobB64 = some (boxVersionV2 :: high :: low :: parsed.headerBytes ++
        parsed.nonce ++ env.prim.encrypt sk parsed.nonce
          (v2Aad sender env.peerId env.session parsed.headerBytes) plaintext))

def Carries (env : Environment Key) (plaintext : Bytes) (data : Option Value) : Prop :=
  exists msg, parse env.platform.numerals (decode plaintext) = some msg ∧
    msg.get sessionName = some (Value.string env.session) ∧ msg.get dataName = data

theorem eq_string_of_asString {v : Option Value} {s : JsString} (h : asString v = some s) :
    v = some (Value.string s) := by
  cases v with
  | none => exact nomatch h
  | some v =>
      cases v with
      | string text => rw [Option.some.inj h]
      | _ => exact nomatch h

variable {env : Environment Key} {plaintext : Bytes} {preKeys left : PreKeyStore}
    {peerKeys : JsString -> Option Key}

theorem carries_of_readPayload {data : Option Value} (h : readPayload env plaintext = some data) :
    Carries env plaintext data := by
  rw [readPayload] at h
  split at h
  · exact nomatch h
  · split at h
    case h_1 msg hparse =>
      split at h
      case isTrue hsession =>
        exact ⟨msg, hparse, eq_string_of_asString hsession, Option.some.inj h⟩
      case isFalse => exact nomatch h
    case h_2 => exact nomatch h

/-!
# What an opened blob was sealed from
-/

theorem sealed_of_openRelayBlob (hlawful : env.prim.Lawful) (preKeys : PreKeyStore)
    {blobB64 sender : JsString} {epk : Value}
    (h : openRelayBlob env.platform env.prim blobB64 env.boxPriv epk sender env.peerId
      env.session = some plaintext) :
    SealedFor env preKeys sender epk blobB64 plaintext := by
  rcases Option.bind_eq_some_iff.mp h with ⟨raw, hraw, hrest⟩
  split at hrest
  · exact nomatch hrest
  · split at hrest
    · exact nomatch hrest
    case isFalse hversion =>
      rcases Option.bind_eq_some_iff.mp hrest with ⟨pub, hpub, hkey⟩
      rcases Option.bind_eq_some_iff.mp hkey with ⟨key, hderive, hdecrypt⟩
      have hsealed := hlawful.encrypt_of_decrypt _ _ _ _ _ hdecrypt
      have hsplit : raw = boxVersion :: (raw.drop 1).take nonceLen ++
          raw.drop (1 + nonceLen) := by
        cases raw with
        | nil => exact nomatch not_not.mp hversion
        | cons version rest =>
            have hhead : version = boxVersion := Option.some.inj (not_not.mp hversion)
            rw [hhead, Nat.add_comm, List.drop_succ_cons, List.drop_succ_cons, List.drop_zero,
              List.cons_append, List.take_append_drop]
      rw [hsealed] at hsplit
      exact SealedFor.v1 hpub hderive (hraw.trans (congrArg some hsplit))

theorem take_drop_parts (l : Bytes) (n m : Nat) :
    l.take n ++ ((l.drop n).take m ++ l.drop (n + m)) = l := by
  rw [<- List.drop_drop, List.take_append_drop, List.take_append_drop]

theorem atob_of_parseRelayBlobV2 {platform : Platform} {blobB64 : JsString}
    {parsed : ParsedRelayBlobV2} (h : parseRelayBlobV2 platform blobB64 = some parsed) :
    exists high low, atob blobB64 = some (boxVersionV2 :: high :: low :: parsed.headerBytes ++
      parsed.nonce ++ parsed.sealed) := by
  rw [parseRelayBlobV2] at h
  split at h
  case h_1 version high low rest hatob =>
    dsimp only at h
    split at h
    · exact nomatch h
    case isFalse hversion =>
      split at h
      · exact nomatch h
      · split at h
        case h_1 ephemeralPub signedPreKeyId oneTimePreKeyId _ =>
          cases h
          refine ⟨high, low, ?_⟩
          simp only [hatob, not_not.mp hversion, List.cons_append, List.append_assoc,
            take_drop_parts]
        case h_2 => exact nomatch h
  case h_2 => exact nomatch h

theorem sealed_of_openBlob (hlawful : env.prim.Lawful) {e : Envelope} {sender : JsString}
    (hsender : e.sender = some (Value.string sender))
    (h : openBlob env preKeys e = some (plaintext, left)) :
    SealedFor env preKeys sender e.epk e.blobB64 plaintext := by
  rw [openBlob, hsender] at h
  rcases Option.bind_eq_some_iff.mp h with ⟨text, htext, hopen⟩
  cases Option.some.inj htext
  split at hopen
  · rcases Option.bind_eq_some_iff.mp hopen with ⟨parsed, hparsed, hspk⟩
    rcases Option.bind_eq_some_iff.mp hspk with ⟨spkPriv, hspkPriv, hopk⟩
    rcases Option.bind_eq_some_iff.mp hopk with ⟨opkPriv, hopkPriv, hpub⟩
    rcases Option.bind_eq_some_iff.mp hpub with ⟨pub, hpubBytes, hsk⟩
    rcases Option.bind_eq_some_iff.mp hsk with ⟨sk, hrespond, hplain⟩
    rcases Option.bind_eq_some_iff.mp hplain with ⟨opened, hdecrypt, hpair⟩
    cases hpair
    have hsealed := hlawful.encrypt_of_decrypt _ _ _ _ _ hdecrypt
    rcases atob_of_parseRelayBlobV2 hparsed with ⟨high, low, hatob⟩
    rw [hsealed] at hatob
    exact SealedFor.v2 hpubBytes hspkPriv hopkPriv hrespond hparsed hatob
  · rcases Option.bind_eq_some_iff.mp hopen with ⟨opened, hopened, hpair⟩
    cases hpair
    exact sealed_of_openRelayBlob hlawful _ hopened

/-!
# Prekeys are only given up
-/

/-- The prekeys that are left are some of the client's own. -/
structure LeftOf (preKeys left : PreKeyStore) : Prop where
  signedPreKeyPriv : forall id, left.signedPreKeyPriv id = preKeys.signedPreKeyPriv id
  oneTimePreKeyPriv : forall id priv,
    left.oneTimePreKeyPriv id = some priv -> preKeys.oneTimePreKeyPriv id = some priv

namespace LeftOf

theorem refl (preKeys : PreKeyStore) : LeftOf preKeys preKeys :=
  ⟨fun _ => rfl, fun _ _ h => h⟩

theorem trans {a b c : PreKeyStore} (hab : LeftOf a b) (hbc : LeftOf b c) : LeftOf a c where
  signedPreKeyPriv := fun id => (hbc.signedPreKeyPriv id).trans (hab.signedPreKeyPriv id)
  oneTimePreKeyPriv := fun id priv h =>
    hab.oneTimePreKeyPriv id priv (hbc.oneTimePreKeyPriv id priv h)

theorem oneTimePriv (h : LeftOf preKeys left) {id : Option Value}
    {priv : Option (FixedBytes 32)} (hpriv : Relay.oneTimePriv left id = some priv) :
    Relay.oneTimePriv preKeys id = some priv := by
  cases id with
  | none => exact hpriv
  | some id =>
      rcases Option.map_eq_some_iff.mp hpriv with ⟨found, hfound, rfl⟩
      rw [Relay.oneTimePriv, h.oneTimePreKeyPriv id found hfound]
      rfl

end LeftOf

theorem leftOf_consumed (preKeys : PreKeyStore) (id : Option Value) :
    LeftOf preKeys (consumed preKeys id) := by
  rcases id with _ | id
  · exact LeftOf.refl preKeys
  · cases id with
    | string id =>
        refine ⟨fun _ => rfl, ?_⟩
        intro other priv hpriv
        cases other with
        | string other =>
            change Function.update preKeys.opks id none other = some priv at hpriv
            by_cases hid : other = id
            · rw [hid, Function.update_self] at hpriv
              exact nomatch hpriv
            · rw [Function.update_of_ne hid] at hpriv
              exact hpriv
        | _ => exact nomatch hpriv
    | _ => exact LeftOf.refl preKeys

theorem left_of_openBlob {e : Envelope} (h : openBlob env preKeys e = some (plaintext, left)) :
    (relayBlobVersion e.blobB64 ≠ some boxVersionV2 ∧ left = preKeys) ∨
      exists parsed, parseRelayBlobV2 env.platform e.blobB64 = some parsed ∧
        (oneTimePriv preKeys (oneTimeId parsed)).isSome ∧
        left = consumed preKeys (oneTimeId parsed) := by
  rcases Option.bind_eq_some_iff.mp h with ⟨text, _, hopen⟩
  split at hopen
  · rcases Option.bind_eq_some_iff.mp hopen with ⟨parsed, hparsed, hspk⟩
    rcases Option.bind_eq_some_iff.mp hspk with ⟨spkPriv, _, hopk⟩
    rcases Option.bind_eq_some_iff.mp hopk with ⟨opkPriv, hopkPriv, hpub⟩
    rcases Option.bind_eq_some_iff.mp hpub with ⟨pub, _, hsk⟩
    rcases Option.bind_eq_some_iff.mp hsk with ⟨sk, _, hplain⟩
    rcases Option.bind_eq_some_iff.mp hplain with ⟨opened, _, hpair⟩
    cases hpair
    exact Or.inr ⟨parsed, hparsed, Option.isSome_of_mem hopkPriv, rfl⟩
  case isFalse hversion =>
    rcases Option.bind_eq_some_iff.mp hopen with ⟨opened, _, hpair⟩
    cases hpair
    exact Or.inl ⟨hversion, rfl⟩

theorem leftOf_finished (env : Environment Key) (preKeys : PreKeyStore)
    (opened : Option (Envelope × Option Key)) : LeftOf preKeys (finished env preKeys opened).1 := by
  rcases opened with _ | ⟨e, key⟩
  · exact LeftOf.refl preKeys
  · rw [finished, finishBlob]
    split
    case h_1 plaintext left hopen =>
      rcases left_of_openBlob hopen with ⟨_, hsame⟩ | ⟨parsed, _, _, hleft⟩
      · rw [hsame]
        exact LeftOf.refl preKeys
      · rw [hleft]
        exact leftOf_consumed preKeys _
    case h_2 => exact LeftOf.refl preKeys

/-!
# The invariant
-/

/-- A key that was found belongs to a sender that is a string, and after the check its
holder's signature is valid. -/
def BlobStage.Checked (env : Environment Key) (e : Envelope) : BlobStage Key -> Prop
  | BlobStage.verifying key => key.isSome -> exists sender, e.sender = some (Value.string sender)
  | BlobStage.ensuring key =>
      key.isSome -> (exists sender, e.sender = some (Value.string sender)) ∧
        passes env e key = true

def PollStage.Checked (env : Environment Key) : PollStage Key -> Prop
  | PollStage.processing e stage _ _ => stage.Checked env e
  | _ => True

structure Message.Checked (env : Environment Key) (preKeys : PreKeyStore)
    (message : Message Key) : Prop where
  passes : message.key.isSome ->
    (exists sender, message.envelope.sender = some (Value.string sender)) ∧
      passes env message.envelope message.key = true
  opened : exists left plaintext left', LeftOf preKeys left ∧
    openBlob env left message.envelope = some (plaintext, left') ∧
    readPayload env plaintext = some message.data
  sender : message.sender = message.envelope.sender

structure AllChecked (env : Environment Key) (preKeys : PreKeyStore) (s : State Key) : Prop where
  left : LeftOf preKeys s.preKeys
  polls : forall i stage, s.polls i = some stage -> stage.Checked env
  messages : forall message, message ∈ s.messages -> message.Checked env preKeys

theorem allChecked_initial (env : Environment Key) (peerKeys : JsString -> Option Key)
    (preKeys : PreKeyStore) : AllChecked env preKeys (State.initial peerKeys preKeys) where
  left := LeftOf.refl preKeys
  polls := fun _ _ h => nomatch h
  messages := fun _ h => nomatch h

theorem checked_startBlob (env : Environment Key) {e : Envelope} {stage : BlobStage Key}
    (h : startBlob peerKeys e = some stage) : stage.Checked env e := by
  rw [startBlob] at h
  split at h
  · cases h
    intro hkey
    rcases Option.isSome_iff_exists.mp hkey with ⟨key, hfound⟩
    rcases Option.bind_eq_some_iff.mp hfound with ⟨sender, hsender, _⟩
    exact ⟨sender, eq_string_of_asString hsender⟩
  · split at h
    · exact nomatch h
    · cases h
      intro hnone
      exact nomatch hnone

theorem checked_advanced (env : Environment Key) {ackIds blobs : List Value}
    {next : Option (PollStage Key)} (h : Advanced peerKeys ackIds blobs next) :
    forall stage, next = some stage -> stage.Checked env := by
  intro stage hstage
  cases h with
  | ended => exact nomatch hstage
  | acking | dropped blob blobs =>
      cases hstage
      trivial
  | began hread hstart =>
      cases hstage
      exact checked_startBlob env hstart

theorem checked_turn {answer : List Value} {stage : PollStage Key}
    {next : Option (PollStage Key)} {fetched : List Value} {opened : Option (Envelope × Option Key)}
    (h : PollTurn env peerKeys answer stage next fetched opened) (hstage : stage.Checked env) :
    forall after, next = some after -> after.Checked env := by
  intro after hafter
  cases h with
  | nothing | acked => exact nomatch hafter
  | fetched hadvanced | looped hadvanced => exact checked_advanced env hadvanced after hafter
  | passed blobs ackIds hpasses =>
      cases hafter
      intro hkey
      exact ⟨hstage hkey, hpasses⟩
  | refused e key blobs ackIds | finished e key blobs ackIds ackIds' =>
      cases hafter
      trivial

theorem checked_message {answer : List Value} {stage : PollStage Key}
    {next : Option (PollStage Key)} {fetched : List Value} {opened : Option (Envelope × Option Key)}
    (h : PollTurn env peerKeys answer stage next fetched opened) (hstage : stage.Checked env)
    (hleft : LeftOf preKeys left) {message : Message Key}
    (hmessage : (finished env left opened).2 = some message) : message.Checked env preKeys := by
  rcases message_of_finished hmessage with ⟨plaintext, left', hopened, hopen, _, hread, hsender⟩
  refine ⟨?_, ⟨left, plaintext, left', hleft, hopen, hread⟩, hsender⟩
  cases h with
  | finished e key blobs ackIds ackIds' =>
      cases hopened
      exact hstage
  | _ => exact nomatch hopened

theorem allChecked_step (s : State Key) (e : Event Key) (h : AllChecked env preKeys s) :
    AllChecked env preKeys (step env s e) := by
  cases e with
  | signal peerKeys => exact ⟨h.left, h.polls, h.messages⟩
  | tick relayPeers =>
      rw [step]
      split
      · refine ⟨h.left, ?_, h.messages⟩
        intro i stage hstage
        simp only [State.suspend, Function.update_apply] at hstage
        split at hstage
        · cases hstage
          trivial
        · exact h.polls i stage hstage
      · exact h
  | resume i answer =>
      cases hpoll : s.polls i with
      | none =>
          rw [step_resume_none env answer hpoll]
          exact h
      | some stage =>
          rcases step_resume env answer hpoll with
            ⟨next, fetched, opened, acks, hturn, hstep⟩
          have hstage := h.polls i stage hpoll
          rw [hstep]
          refine ⟨h.left.trans (leftOf_finished env s.preKeys opened), ?_, ?_⟩
          · intro j other hother
            simp only [Function.update_apply] at hother
            split at hother
            · exact checked_turn hturn hstage other hother
            · exact h.polls j other hother
          · intro message hmem
            rcases List.mem_append.mp hmem with hold | hnew
            · exact h.messages message hold
            · exact checked_message hturn hstage h.left (Option.mem_toList.mp hnew)

theorem allChecked_after (env : Environment Key) (peerKeys : JsString -> Option Key)
    (preKeys : PreKeyStore) (events : List (Event Key)) :
    AllChecked env preKeys (after (step env) (State.initial peerKeys preKeys) events) :=
  invariant_after (fun s e h _ => allChecked_step s e h)
    (allChecked_initial env peerKeys preKeys) (stepsMeet_true (step env) _ events)

/-!
# The signature behind a message
-/

theorem SealedFor.of_leftOf (hleft : LeftOf preKeys left) {sender blobB64 : JsString}
    {epk : Value} (h : SealedFor env left sender epk blobB64 plaintext) :
    SealedFor env preKeys sender epk blobB64 plaintext := by
  cases h with
  | v1 hpub hkey hblob => exact SealedFor.v1 hpub hkey hblob
  | v2 hpub hspk hopk hsk hparsed hblob =>
      rw [hleft.signedPreKeyPriv] at hspk
      exact SealedFor.v2 hpub hspk (hleft.oneTimePriv hopk) hsk hparsed hblob

/--
Every message dispatched from a peer whose key was stored when the signature check began,
in any run: the holder of that key signed a deposit for this peer id from this sender, and
its blob was sealed for this client from this session and this data.
-/
theorem message_authentic (env : Environment Key) (hlawful : env.prim.Lawful)
    (signed : Key -> Bytes -> Prop)
    (hunforgeable : forall key sig message,
      env.ecdsa.verify key sig message = true -> signed key message)
    (peerKeys : JsString -> Option Key) (preKeys : PreKeyStore) (events : List (Event Key))
    {message : Message Key}
    (hmessage : message ∈ (after (step env) (State.initial peerKeys preKeys) events).messages)
    {key : Key} (hkey : message.key = some key) :
    exists sender nonce blobB64 epk plaintext,
      message.sender = some (Value.string sender) ∧
      signed key (Text.utf8 (sigMsg env.platform env.peerId (some (Value.string sender)) nonce
        blobB64 epk)) ∧
      SealedFor env preKeys sender epk blobB64 plaintext ∧
      Carries env plaintext message.data := by
  have hchecked := (allChecked_after env peerKeys preKeys events).messages message hmessage
  rcases hchecked.passes (Option.isSome_of_mem hkey) with ⟨⟨sender, hsender⟩, hpasses⟩
  rcases hchecked.opened with ⟨left, plaintext, left', hleft, hopen, hread⟩
  refine ⟨sender, message.envelope.blob.get nonceName, message.envelope.blobB64,
    message.envelope.epk, plaintext, hchecked.sender.trans hsender, ?_,
    (sealed_of_openBlob hlawful hsender hopen).of_leftOf hleft, carries_of_readPayload hread⟩
  rw [hkey, passes, hsender] at hpasses
  split at hpasses
  case h_1 sig _ =>
    rw [verifyFrame, verifyRaw] at hpasses
    split at hpasses
    · exact hunforgeable key _ _ hpasses
    · exact nomatch hpasses
  case h_2 => exact nomatch hpasses

def Message.summary (message : Message Key) : Option JsString × Option JsString × Option Key :=
  (asString message.sender, asString message.data, message.key)

theorem sampleDeposit_authentic :
    exists message sender plaintext,
      message ∈ (after (step (Signaling.sampleEnvironment true))
        (State.initial sampleKeys samplePreKeys)
        (poll 0 (signedDeposit Signaling.samplePoint sampleBlob))).messages ∧
      message.sender = some (Value.string sender) ∧
      Carries (Signaling.sampleEnvironment true) plaintext message.data := by
  have hrun : (after (step (Signaling.sampleEnvironment true))
      (State.initial sampleKeys samplePreKeys)
      (poll 0 (signedDeposit Signaling.samplePoint sampleBlob))).messages.map Message.summary =
        [(some Signaling.samplePeer, some (ofText ['d']), some Signaling.samplePoint)] := by
    decide +kernel
  have hmem : (some Signaling.samplePeer, some (ofText ['d']), some Signaling.samplePoint) ∈
      (after (step (Signaling.sampleEnvironment true)) (State.initial sampleKeys samplePreKeys)
        (poll 0 (signedDeposit Signaling.samplePoint sampleBlob))).messages.map
          Message.summary := by
    rw [hrun]
    exact List.mem_singleton.mpr rfl
  rcases List.mem_map.mp hmem with ⟨message, hmessage, hsummary⟩
  have hkey : message.key = some Signaling.samplePoint := congrArg (fun m => m.2.2) hsummary
  rcases message_authentic (Signaling.sampleEnvironment true) samplePrimitives_lawful
    (fun key text => exists sig, Signaling.sampleEcdsa.verify key sig text = true)
    (fun _ sig _ h => ⟨sig, h⟩) sampleKeys samplePreKeys _ hmessage hkey with
    ⟨sender, _, _, _, plaintext, hsender, _, _, hcarries⟩
  exact ⟨message, sender, plaintext, hmessage, hsender, hcarries⟩

end Relay
end Client
end Ephor
